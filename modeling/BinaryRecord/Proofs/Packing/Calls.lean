import BinaryRecord.Proofs.Packing.Spans

/-!
# Calls that pack

A call packs as its layout does, wherever the record's buffer can be reserved. Where it cannot, the
call panics for as many values as the layout has, and the values have no part in that. Main
statement: `Layout.packCall_slotwise`.
-/

set_option autoImplicit false

namespace BinaryRecord.Layout

variable {layout : Layout} {values : List Value} {packed : Bytes} {error : PackError}
  {panic : Panic}

theorem pack_of_misfit (misfit : values.length ≠ layout.valueCount) :
    layout.pack values = .error (.arity layout.valueCount values.length) := by
  rw [pack, if_pos misfit]
  rfl

theorem packCall_of_lt (reserved : layout.size < Size.bufferLimit) (values : List Value) :
    layout.packCall values = (layout.pack values).mapError .answered :=
  if_neg fun beyond => Nat.not_le.mpr reserved beyond.2

theorem packCall_of_le (beyond : Size.bufferLimit ≤ layout.size)
    (full : values.length = layout.valueCount) :
    layout.packCall values = .error (.panicked .capacityOverflow) :=
  if_pos ⟨full, beyond⟩

/-- All that a call can come to. -/
theorem packCall_cases (layout : Layout) (values : List Value) :
    (∃ packed, layout.size < Size.bufferLimit ∧ layout.pack values = .ok packed ∧
      layout.packCall values = .ok packed) ∨
    (∃ error, (values.length = layout.valueCount → layout.size < Size.bufferLimit) ∧
      layout.pack values = .error error ∧
      layout.packCall values = .error (.answered error)) ∨
    (values.length = layout.valueCount ∧ Size.bufferLimit ≤ layout.size ∧
      layout.packCall values = .error (.panicked .capacityOverflow)) := by
  by_cases beyond : values.length = layout.valueCount ∧ Size.bufferLimit ≤ layout.size
  · exact .inr (.inr ⟨beyond.1, beyond.2, if_pos beyond⟩)
  · have called : layout.packCall values = (layout.pack values).mapError .answered := if_neg beyond
    have reserved (full : values.length = layout.valueCount) : layout.size < Size.bufferLimit :=
      Nat.lt_of_not_le fun tooLong => beyond ⟨full, tooLong⟩
    cases packs : layout.pack values with
    | error error =>
        rw [packs] at called
        exact .inr (.inl ⟨error, reserved, rfl, called⟩)
    | ok packed =>
        -- Only as many values as the layout has are packed, so the record has been reserved.
        have full : values.length = layout.valueCount := by
          apply Classical.byContradiction
          intro misfit
          cases (pack_of_misfit misfit).symm.trans packs
        rw [packs] at called
        exact .inl ⟨packed, reserved full, rfl, called⟩

theorem packCall_eq_ok_iff :
    layout.packCall values = .ok packed ↔
      layout.size < Size.bufferLimit ∧ layout.pack values = .ok packed := by
  rcases layout.packCall_cases values with
    ⟨other, reserved, accepted, called⟩ | ⟨error, _, rejected, called⟩ | ⟨_, beyond, called⟩
  · simp [called, accepted, reserved]
  · simp [called, rejected]
  · simp [called, Nat.not_lt.mpr beyond]

theorem packCall_eq_answered_iff :
    layout.packCall values = .error (.answered error) ↔
      layout.pack values = .error error ∧
        (values.length = layout.valueCount → layout.size < Size.bufferLimit) := by
  rcases layout.packCall_cases values with
    ⟨packed, _, accepted, called⟩ | ⟨other, reserved, rejected, called⟩ | ⟨full, beyond, called⟩
  · simp [called, accepted]
  · rw [called, rejected, and_iff_left reserved, Except.error.injEq, Except.error.injEq,
      CallFailure.answered.injEq]
  · simp [called, full, Nat.not_lt.mpr beyond]

theorem packCall_eq_panicked_iff :
    layout.packCall values = .error (.panicked panic) ↔
      values.length = layout.valueCount ∧ Size.bufferLimit ≤ layout.size ∧
        panic = .capacityOverflow := by
  rcases layout.packCall_cases values with
    ⟨packed, reserved, _, called⟩ | ⟨error, reserved, _, called⟩ | ⟨full, beyond, called⟩
  · simp [called, Nat.not_le.mpr reserved]
  · rw [called]
    exact iff_of_false nofun fun both => Nat.not_le.mpr (reserved both.1) both.2.1
  · simp [called, full, beyond, eq_comm]

theorem packCall_ne_panicked (reserved : layout.size < Size.bufferLimit) (panic : Panic) :
    layout.packCall values ≠ .error (.panicked panic) :=
  fun panicked => Nat.not_le.mpr reserved (packCall_eq_panicked_iff.mp panicked).2.1

/-- A target grows to any length that a buffer can have. -/
theorem packIntoCall_of_lt {offset : Nat} (reserved : offset + layout.size < Size.bufferLimit)
    (values : List Value) :
    layout.packIntoCall offset values = (layout.packInto offset values).adaptExcept .answered := by
  have size : layout.size < Size.bufferLimit := Nat.lt_of_le_of_lt (Nat.le_add_left _ _) reserved
  have bounded : ¬Size.limit ≤ offset + layout.size :=
    Nat.not_le.mpr (Nat.lt_trans reserved (by decide))
  funext target
  rw [packIntoCall, packInto, if_neg bounded, if_neg bounded, packCall_of_lt size]
  cases layout.pack values with
  | error error => rfl
  | ok packed =>
      have grows : ¬(target.length < offset + layout.size ∧
          Size.bufferLimit ≤ offset + layout.size) :=
        fun beyond => Nat.not_le.mpr reserved beyond.2
      exact congrFun (if_neg grows) target

/-- Packing succeeds exactly for as many values as there are slots, each of which fits its slot, and
for a record that a buffer can hold. The record is then their encodings in a row. Otherwise the
number of values decides the error, and after it the first value that does not fit, unless the
record's buffer cannot be reserved: then the call panics, whatever the values are. -/
theorem packCall_slotwise {source : String} (compiled : compile source = .ok layout)
    (values : List Value) :
    ((∃ packed, layout.packCall values = .ok packed) ↔
      values.length = layout.valueCount ∧ layout.size < Size.bufferLimit ∧
        Slot.AllFit layout.slots values) ∧
    (∀ packed, layout.packCall values = .ok packed →
      packed.length = layout.size ∧
      ∀ (index : Nat) (slot : Slot) (value : Value),
        layout.slots[index]? = some slot → values[index]? = some value →
          slot.encode layout.order value =
            .ok ((packed.drop (layout.offset index)).take slot.width) ∧
          (∀ content, value = .bytes content →
            (packed.drop (layout.offset index)).take slot.width = content.take slot.width) ∧
          ∀ other, slot.Fits other →
            ∃ exchanged, layout.packCall (values.set index other) = .ok exchanged ∧
              ∀ position,
                position < layout.offset index ∨ layout.offset index + slot.width ≤ position →
                  exchanged[position]? = packed[position]?) ∧
    (∀ error, layout.packCall values = .error (.answered error) ↔
      (values.length ≠ layout.valueCount ∧
        error = .arity layout.valueCount values.length) ∨
      (values.length = layout.valueCount ∧ layout.size < Size.bufferLimit ∧
        ∃ (index : Nat) (slot : Slot) (value : Value),
          layout.slots[index]? = some slot ∧ values[index]? = some value ∧
          Slot.AllFit (layout.slots.take index) values ∧
          ((value.kind ≠ slot.field.kind ∧
            error = .typeMismatch index slot.field.tag slot.field.name slot.field.kind
              value.kind) ∨
          ∃ content, value = .bytes content ∧ slot.field = .bytes ∧
            content.length < slot.width ∧
            error = .stringLength index slot.width content.length))) ∧
    (∀ panic, layout.packCall values = .error (.panicked panic) ↔
      values.length = layout.valueCount ∧ Size.bufferLimit ≤ layout.size ∧
        panic = .capacityOverflow) ∧
    (∀ index cause, layout.packCall values ≠ .error (.answered (.codec index cause))) ∧
    (∀ offset size, layout.packCall values ≠ .error (.answered (.offsetRange offset size))) ∧
    ∀ fault, layout.packCall values ≠ .error (.answered (.transfer fault)) := by
  have exact := exact_of_compile compiled
  have blames : ∀ error, layout.packCall values = .error (.answered error) → error.OfValues :=
    fun error rejected => ofValues_of_pack_error exact (packCall_eq_answered_iff.mp rejected).1
  refine ⟨?_, ?_, ?_, fun panic => packCall_eq_panicked_iff, ?_, ?_, ?_⟩
  · simp only [packCall_eq_ok_iff, exists_and_left, exists_pack_iff_allFit exact]
    exact and_left_comm
  · intro packed accepted
    obtain ⟨reserved, accepted⟩ := packCall_eq_ok_iff.mp accepted
    refine ⟨length_of_pack exact accepted, ?_⟩
    intro index slot value slotFound valueFound
    have span := span_of_pack exact accepted slotFound valueFound
    refine ⟨span, ?_, ?_⟩
    · intro content bytes
      subst bytes
      exact Slot.eq_take_of_encode span
    · intro other fits
      obtain ⟨exchanged, repacked, outside⟩ :=
        exchange_of_pack exact accepted slotFound valueFound fits
      exact ⟨exchanged, packCall_eq_ok_iff.mpr ⟨reserved, repacked⟩, outside⟩
  · intro error
    rw [packCall_eq_answered_iff, pack_eq_error_iff exact, ← Slot.exists_firstMisfit_iff]
    by_cases full : values.length = layout.valueCount
    · simp [full, and_comm]
    · simp [full]
  · intro index cause rejected
    nomatch blames _ rejected
  · intro offset size rejected
    nomatch blames _ rejected
  · intro fault rejected
    nomatch blames _ rejected

/-- A layout with records that no buffer holds, for examples. -/
def colossus : Layout :=
  ⟨"9223372036854775808s", ⟨.little, [⟨9223372036854775808, .bytes, by decide⟩]⟩,
    9223372036854775808, 1⟩

theorem compile_colossus : compile "9223372036854775808s" = .ok colossus :=
  rfl

/-- An exchange of the number in the middle, and two values that do not fit. A string that is
shorter than its slot is not refused where its record is too long for a buffer. -/
theorem packCall_slotwise_specimen :
    compile ">2se?" = .ok specimen ∧
      specimen.packCall [.bytes [97, 98, 99], .float16 0x7E01, .bool true] =
        .ok [97, 98, 0x7E, 1, 1] ∧
      (∃ exchanged, specimen.packCall [.bytes [97, 98, 99], .float16 0x3C00, .bool true] =
        .ok exchanged ∧ exchanged[1]? = some 98 ∧ exchanged[4]? = some 1) ∧
      specimen.packCall [.bytes [97, 98], .float32 0, .uint8 7] =
        .error (.answered (.typeMismatch 1 'e' "half" .float16 .float32)) ∧
      compile "9223372036854775808s" = .ok colossus ∧
      colossus.packCall [.bytes [97, 98, 99]] = .error (.panicked .capacityOverflow) ∧
      colossus.packCall [.bytes [97, 98, 99]] ≠
        .error (.answered (.stringLength 0 9223372036854775808 3)) := by
  have accepted : specimen.packCall [.bytes [97, 98, 99], .float16 0x7E01, .bool true] =
      .ok [97, 98, 0x7E, 1, 1] := rfl
  obtain ⟨_, _, _, panics, _⟩ := packCall_slotwise compile_colossus [.bytes [97, 98, 99]]
  have panicked := (panics .capacityOverflow).mpr ⟨rfl, Nat.le_refl _, rfl⟩
  refine ⟨compile_specimen, accepted, ?_, ?_, compile_colossus, panicked, ?_⟩
  · obtain ⟨_, spans, _⟩ := packCall_slotwise compile_specimen
      [.bytes [97, 98, 99], .float16 0x7E01, .bool true]
    obtain ⟨_, _, exchange⟩ := (spans _ accepted).2 1 ⟨.half, 2⟩ (.float16 0x7E01) rfl rfl
    obtain ⟨exchanged, repacked, outside⟩ := exchange (.float16 0x3C00) ⟨rfl, nofun⟩
    exact ⟨exchanged, repacked, outside 1 (.inl (by decide)), outside 4 (.inr (by decide))⟩
  · obtain ⟨_, _, errors, _⟩ := packCall_slotwise compile_specimen
      [.bytes [97, 98], .float32 0, .uint8 7]
    have before : Slot.AllFit (specimen.slots.take 1) [.bytes [97, 98], .float32 0, .uint8 7] := by
      refine Slot.allFit_cons_iff.mpr ⟨⟨rfl, ?_⟩, ?_⟩
      · rintro _ ⟨⟩
        decide
      · intro _ _ _ found
        simp at found
    exact (errors _).mpr (.inr ⟨rfl, by decide, 1, ⟨.half, 2⟩, .float32 0, rfl, rfl, before,
      .inl ⟨by decide, rfl⟩⟩)
  · rw [panicked]
    exact nofun

end BinaryRecord.Layout
