import BinaryRecord.Proofs.Packing.Placement
import BinaryRecord.Proofs.RoundTrip.Values
import BinaryRecord.Proofs.Unpacking.Spans

/-!
# Records in a target, read back

Packing into a target keeps what stands behind the record, and unpacking from an offset wants
nothing there. So a packed record is read back from its offset where the old target does not reach
behind it, and from its own span in any case. Main statement: `Layout.unpackFrom_packInto`.
-/

set_option autoImplicit false

namespace BinaryRecord.Layout

variable {layout : Layout} {offset written : Nat} {values : List Value} {target after : Bytes}

/-- From the offset on there is the record, and then what stood behind it. -/
theorem drop_of_packInto (exact : layout.Exact)
    (placed : layout.packInto offset values target = .ok written after) :
    ∃ packed, layout.pack values = .ok packed ∧ packed.length = layout.size ∧
      after.drop offset = packed ++ target.drop (offset + layout.size) := by
  obtain ⟨_, packed, accepted, _, rfl⟩ := packInto_eq_ok_iff.mp placed
  have length := length_of_pack exact accepted
  refine ⟨packed, accepted, length, ?_⟩
  rw [Bytes.drop_overwrite, length]

theorem length_of_packInto (exact : layout.Exact)
    (placed : layout.packInto offset values target = .ok written after) :
    after.length = max target.length (offset + layout.size) := by
  obtain ⟨_, packed, accepted, _, rfl⟩ := packInto_eq_ok_iff.mp placed
  rw [Bytes.length_overwrite, length_of_pack exact accepted]

theorem unpack_span_of_packInto (exact : layout.Exact)
    (placed : layout.packInto offset values target = .ok written after) :
    layout.unpack ((after.drop offset).take layout.size) = .ok (layout.restore values) := by
  obtain ⟨packed, accepted, length, behind⟩ := drop_of_packInto exact placed
  have span : (after.drop offset).take layout.size = packed := by
    rw [behind]
    exact List.take_left' length
  rw [span]
  exact (unpack_of_pack exact accepted).2

theorem unpackFrom_of_packInto_of_le (exact : layout.Exact) (positive : 0 < layout.size)
    (placed : layout.packInto offset values target = .ok written after)
    (reached : target.length ≤ offset + layout.size) :
    layout.unpackFrom offset after = .ok (layout.restore values) := by
  have length := length_of_packInto exact placed
  have inside : offset < after.length := by omega
  have whole : (after.drop offset).take layout.size = after.drop offset := by
    apply List.take_of_length_le
    rw [List.length_drop]
    omega
  have span := unpack_span_of_packInto exact placed
  rw [whole] at span
  exact (unpackFrom_of_lt inside).trans span

theorem unpackFrom_of_packInto_of_lt (exact : layout.Exact)
    (placed : layout.packInto offset values target = .ok written after)
    (behind : offset + layout.size < target.length) :
    layout.unpackFrom offset after =
      .error (.sizeMismatch layout.size (target.length - offset)) := by
  have length : after.length = target.length := by
    rw [length_of_packInto exact placed]
    omega
  have inside : offset < after.length := by omega
  have misfit : offset + layout.size ≠ after.length := by omega
  exact (unpackFrom_eq_error_iff exact).mpr (.inr ⟨inside, misfit, by rw [length]⟩)

/-- A record that was packed into a target is read back from its offset exactly where nothing of the
old target is left behind it. From its span it is always read back. -/
theorem unpackFrom_packInto {source : String} (compiled : compile source = .ok layout)
    (placed : layout.packInto offset values target = .ok written after) :
    ∃ restored : List Value, restored.length = values.length ∧
      (∀ (index : Nat) (value : Value), values[index]? = some value →
        ∃ slot, layout.slots[index]? = some slot ∧ restored[index]? = some (slot.restore value)) ∧
      (layout.unpackFrom offset after = .ok restored ↔
        target.length ≤ offset + layout.size) ∧
      (offset + layout.size < target.length →
        layout.unpackFrom offset after =
          .error (.sizeMismatch layout.size (target.length - offset))) ∧
      (∀ start length, layout.unpackFrom offset after ≠ .error (.offsetRange start length)) ∧
      offset + layout.size ≤ after.length ∧
      layout.unpack ((after.drop offset).take layout.size) = .ok restored := by
  have exact := exact_of_compile compiled
  have positive := size_pos_of_compile compiled
  have length := length_of_packInto exact placed
  obtain ⟨packed, accepted, _⟩ := drop_of_packInto exact placed
  have full := (unpack_of_pack exact accepted).1
  refine ⟨layout.restore values, length_restore full, fun _ _ => getElem?_restore full, ?_,
    unpackFrom_of_packInto_of_lt exact placed, ?_, by omega,
    unpack_span_of_packInto exact placed⟩
  · constructor
    · intro unpacked
      have ends := (exists_unpackFrom_iff exact positive).mp ⟨_, unpacked⟩
      omega
    · exact unpackFrom_of_packInto_of_le exact positive placed
  · intro start stop outside
    rcases (unpackFrom_eq_error_iff exact).mp outside with ⟨past, _⟩ | ⟨_, _, mismatch⟩
    · omega
    · cases mismatch

/-- A target that ends before the record, and one that goes on behind it. -/
theorem unpackFrom_packInto_specimen :
    compile ">2se?" = .ok specimen ∧
      (∃ after restored,
        specimen.packInto 1 [.bytes [97, 98, 99], .float16 0x3C00, .bool true] [7] = .ok 5 after ∧
          specimen.unpackFrom 1 after = .ok restored ∧ restored[0]? = some (.bytes [97, 98])) ∧
      ∃ after, specimen.packInto 1 [.bytes [97, 98], .float16 0x3C00, .bool true]
          [7, 7, 7, 7, 7, 7, 7, 7] = .ok 5 after ∧
        specimen.unpackFrom 1 after = .error (.sizeMismatch 5 7) := by
  have short : specimen.packInto 1 [.bytes [97, 98, 99], .float16 0x3C00, .bool true] [7] =
      .ok 5 [7, 97, 98, 0x3C, 0, 1] := rfl
  have long : specimen.packInto 1 [.bytes [97, 98], .float16 0x3C00, .bool true]
      [7, 7, 7, 7, 7, 7, 7, 7] = .ok 5 [7, 97, 98, 0x3C, 0, 1, 7, 7] := rfl
  obtain ⟨restored, _, held, readBack, _⟩ := unpackFrom_packInto compile_specimen short
  obtain ⟨slot, found, first⟩ := held 0 _ rfl
  cases found
  obtain ⟨_, _, _, _, mismatch, _⟩ := unpackFrom_packInto compile_specimen long
  exact ⟨compile_specimen, ⟨_, restored, short, readBack.mpr (by decide), first⟩, _, long,
    mismatch (by decide)⟩

end BinaryRecord.Layout
