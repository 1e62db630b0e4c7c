import BinaryRecord.Proofs.Layout.Compilation
import BinaryRecord.Proofs.RoundTrip.Values
import BinaryRecord.Sample

/-!
# Sample records

The sample values of a layout fill its slots, whatever its groups are, and none of them is a
floating-point value that is no number. So every layout has a sample record, which is read back as
the same values. Main statement: `Layout.sampleRecord_unpacks`.
-/

set_option autoImplicit false

attribute [local instance (high)] instPowNat

namespace BinaryRecord

namespace Sample

variable {field : Field} {width index place : Nat} {seed : UInt64}

theorem toNat_letter (position : UInt64) : (letter position).toNat = 97 + position.toNat % 26 := by
  have remainder : (position % 26).toUInt8.toNat = position.toNat % 26 := by
    have small : position.toNat % 26 < 256 := by omega
    rw [UInt64.toNat_toUInt8, UInt64.toNat_mod]
    exact Nat.mod_eq_of_lt small
  have byte : 97 + position.toNat % 26 < 256 := by omega
  rw [letter, UInt8.toNat_add, remainder]
  exact Nat.mod_eq_of_lt byte

/-- A place that stays below the bound is found without wrapping. -/
theorem toNat_letter_add (bounded : index + place < Size.limit) :
    (letter (UInt64.ofNat index + UInt64.ofNat place)).toNat = 97 + (index + place) % 26 := by
  have small : index + place < 2 ^ 64 := bounded
  rw [toNat_letter, ← UInt64.ofNat_add, UInt64.toNat_ofNat', Nat.mod_eq_of_lt small]

def letters (width : Nat) (seed : UInt64) : Bytes :=
  (List.range width).map fun place => letter (seed + UInt64.ofNat place)

theorem length_letters (width : Nat) (seed : UInt64) : (letters width seed).length = width := by
  simp [letters]

theorem getElem?_letters (inside : place < width) :
    (letters width seed)[place]? = some (letter (seed + UInt64.ofNat place)) := by
  simp [letters, inside]

theorem kind_value (field : Field) (width : Nat) (seed : UInt64) :
    (value field width seed).kind = field.kind := by
  cases field <;> rfl

theorem value_of_bytes (string : field = .bytes) :
    value field width seed = .bytes (letters width seed) := by
  subst string
  rfl

theorem length_of_value {content : Bytes} (held : value field width seed = .bytes content) :
    content.length = width := by
  cases field with
  | bytes =>
      cases held
      exact length_letters width seed
  | _ => cases held

theorem fits_value (slot : Slot) (seed : UInt64) :
    slot.Fits (value slot.field slot.width seed) where
  kind_eq := kind_value slot.field slot.width seed
  fills := fun _ held => Nat.le_of_eq (length_of_value held).symm

theorem restore_value (slot : Slot) (seed : UInt64) :
    slot.restore (value slot.field slot.width seed) = value slot.field slot.width seed := by
  cases held : value slot.field slot.width seed with
  | bytes content =>
      rw [Slot.restore, List.take_of_length_le (Nat.le_of_eq (length_of_value held))]
  | _ => rfl

/-- A rounded product is a number, and no bit of its pattern is lost in a word of the format. -/
theorem equal_self_scaled {format : FloatFormat} {patterns : Nat}
    (fractional : 0 < format.fractionBits) (word : 2 * format.signWeight = patterns)
    (number : UInt64) (factor : Nat) (exponent : Int) :
    format.equal (scaled format number factor exponent % patterns)
      (scaled format number factor exponent % patterns) = true := by
  have bounded : scaled format number factor exponent < patterns :=
    word ▸ FloatFormat.scale_lt fractional _ factor exponent
  rw [Nat.mod_eq_of_lt bounded, FloatFormat.equal_self_iff, scaled, ne_eq,
    FloatFormat.datum_scale_eq_nan_iff fractional, FloatFormat.datum_encode_eq_nan_iff fractional]
  exact nofun

theorem equal_self_value (field : Field) (width : Nat) (seed : UInt64) :
    (value field width seed).equal (value field width seed) = true := by
  cases field with
  | half =>
      rw [value, Value.equal, UInt16.toNat_ofNat']
      exact equal_self_scaled (by decide) (by decide) _ _ _
  | float =>
      rw [value, Value.equal, UInt32.toNat_ofNat']
      exact equal_self_scaled (by decide) (by decide) _ _ _
  | double =>
      rw [value, Value.equal, UInt64.toNat_ofNat']
      exact equal_self_scaled (by decide) (by decide) _ _ _
  | _ => exact decide_eq_true rfl

theorem value_slot (group : Group) (seed : UInt64) :
    value group.slot.field group.slot.width seed = value group.field group.count seed := by
  -- The widths differ for scalar fields, which have no use for them.
  rw [Group.slot]
  cases field : group.field with
  | bytes => rfl
  | _ => rfl

theorem map_value_eq_mapIdx (group : Group) (index : Nat) :
    (List.range' index group.valueCount).map
        (fun seed => value group.field group.count (UInt64.ofNat seed)) =
      group.slots.mapIdx fun place slot =>
        value slot.field slot.width (UInt64.ofNat (index + place)) := by
  apply List.ext_getElem?
  intro place
  rw [Group.slots_eq_replicate, List.getElem?_map, List.getElem?_mapIdx, List.getElem?_replicate]
  split
  next inside => simp [List.getElem?_range' inside, value_slot]
  next outside => simp [Nat.le_of_not_lt outside]

/-- Every slot has the sample value of its index, wherever the groups begin and end. -/
theorem values_eq_mapIdx (index : Nat) (groups : List Group) :
    values index groups = (groups.flatMap Group.slots).mapIdx fun place slot =>
      value slot.field slot.width (UInt64.ofNat (index + place)) := by
  induction groups generalizing index with
  | nil => rfl
  | cons group later laterIH =>
      rw [values, map_value_eq_mapIdx, laterIH, List.flatMap_cons, List.mapIdx_append,
        Group.length_slots]
      simp [Nat.add_comm, Nat.add_left_comm]

end Sample

namespace Layout

variable {layout : Layout} {index : Nat} {slot : Slot}

theorem sampleValues_eq (layout : Layout) :
    layout.sampleValues = layout.slots.mapIdx fun index slot =>
      Sample.value slot.field slot.width (UInt64.ofNat index) := by
  simpa [sampleValues, slots] using Sample.values_eq_mapIdx 0 layout.groups

theorem length_sampleValues (layout : Layout) :
    layout.sampleValues.length = layout.slots.length := by
  simp [sampleValues_eq]

theorem getElem?_sampleValues (found : layout.slots[index]? = some slot) :
    layout.sampleValues[index]? =
      some (Sample.value slot.field slot.width (UInt64.ofNat index)) := by
  simp [sampleValues_eq, found]

theorem allFit_sampleValues (layout : Layout) :
    Slot.AllFit layout.slots layout.sampleValues := by
  intro index slot value slotFound valueFound
  cases valueFound.symm.trans (getElem?_sampleValues slotFound)
  exact Sample.fits_value slot (UInt64.ofNat index)

theorem restore_sampleValues (layout : Layout) :
    layout.restore layout.sampleValues = layout.sampleValues := by
  apply List.ext_getElem?
  intro index
  rw [restore, sampleValues_eq, List.getElem?_zipWith, List.getElem?_mapIdx]
  cases layout.slots[index]? with
  | none => rfl
  | some slot => exact congrArg some (Sample.restore_value slot (UInt64.ofNat index))

theorem isEqv_sampleValues (layout : Layout) :
    layout.sampleValues.isEqv layout.sampleValues Value.equal = true := by
  simp only [sampleValues_eq, List.isEqv_eq_decide, dif_pos, decide_eq_true_eq, List.getElem_mapIdx]
  intro index inside
  exact Sample.equal_self_value _ _ _

theorem unpack_sampleRecord (exact : layout.Exact) :
    ∃ record, layout.sampleRecord = .ok record ∧ record.length = layout.size ∧
      layout.unpack record = .ok layout.sampleValues := by
  have full := layout.length_sampleValues.trans exact.valueCount.symm
  obtain ⟨record, packed⟩ :=
    (exists_pack_iff_allFit exact).mpr ⟨full, layout.allFit_sampleValues⟩
  obtain ⟨_, unpacked⟩ := unpack_of_pack exact packed
  rw [restore_sampleValues] at unpacked
  exact ⟨record, packed, length_of_pack exact packed, unpacked⟩

theorem index_le_offset (found : layout.slots[index]? = some slot) :
    index ≤ layout.offset index := by
  obtain ⟨inside, _⟩ := List.getElem?_eq_some_iff.mp found
  calc
    index = (layout.slots.take index).length :=
      (List.length_take_of_le (Nat.le_of_lt inside)).symm
    _ ≤ Slot.widthSum (layout.slots.take index) :=
      Slot.length_le_widthSum fun _ member => sound_of_mem_slots (List.mem_of_mem_take member)

theorem index_add_lt_limit {source : String} (compiled : compile source = .ok layout)
    (found : layout.slots[index]? = some slot) {place : Nat} (inside : place < slot.width) :
    index + place < Size.limit := by
  calc
    index + place < layout.offset index + slot.width :=
      Nat.add_lt_add_of_le_of_lt (index_le_offset found) inside
    _ ≤ layout.size := end_le_size (exact_of_compile compiled) found
    _ < Size.limit := size_lt_of_compile compiled

/-- Every layout has one sample value for each slot, and all of them come back from their record.
The letters of a byte string are counted on from its index, which no layout is large enough to
wrap. -/
theorem sampleRecord_unpacks {source : String} (compiled : compile source = .ok layout) :
    layout.sampleValues.length = layout.valueCount ∧
    (∀ (index : Nat) (slot : Slot), layout.slots[index]? = some slot →
      (∀ place < slot.width, index + place < Size.limit) ∧
      ∃ value, layout.sampleValues[index]? = some value ∧ value.kind = slot.field.kind ∧
        (slot.field = .bytes →
          ∃ content, value = .bytes content ∧ content.length = slot.width ∧
            ∀ place byte, content[place]? = some byte →
              'a'.toNat ≤ byte.toNat ∧ byte.toNat ≤ 'z'.toNat ∧
              byte.toNat = 'a'.toNat + (index + place) % 26)) ∧
    ∃ record, layout.sampleRecord = .ok record ∧ record.length = layout.size ∧
      layout.unpack record = .ok layout.sampleValues ∧
      layout.sampleValues.isEqv layout.sampleValues Value.equal = true := by
  have exact := exact_of_compile compiled
  refine ⟨layout.length_sampleValues.trans exact.valueCount.symm, ?_, ?_⟩
  · intro index slot found
    refine ⟨fun place => index_add_lt_limit compiled found, _, getElem?_sampleValues found,
      Sample.kind_value slot.field slot.width _, ?_⟩
    intro string
    refine ⟨_, Sample.value_of_bytes string, Sample.length_letters slot.width _, ?_⟩
    intro place byte letterFound
    obtain ⟨inside, _⟩ := List.getElem?_eq_some_iff.mp letterFound
    rw [Sample.length_letters] at inside
    rw [Sample.getElem?_letters inside] at letterFound
    cases letterFound
    rw [Sample.toNat_letter_add (index_add_lt_limit compiled found inside)]
    have low : 'a'.toNat = 97 := rfl
    have high : 'z'.toNat = 122 := rfl
    omega
  · obtain ⟨record, packed, length, unpacked⟩ := unpack_sampleRecord exact
    exact ⟨record, packed, length, unpacked, layout.isEqv_sampleValues⟩

theorem sampleRecord_unpacks_specimen :
    compile ">2se?" = .ok specimen ∧
      specimen.sampleValues = [.bytes [97, 98], .float16 0x3800, .bool true] ∧
      specimen.sampleRecord = .ok [97, 98, 0x38, 0, 1] ∧
      specimen.unpack [97, 98, 0x38, 0, 1] =
        .ok [.bytes [97, 98], .float16 0x3800, .bool true] := by
  have values : specimen.sampleValues = [.bytes [97, 98], .float16 0x3800, .bool true] := by decide
  have packed : specimen.sampleRecord = .ok [97, 98, 0x38, 0, 1] := rfl
  obtain ⟨_, _, record, accepted, _, unpacked, _⟩ := sampleRecord_unpacks compile_specimen
  cases packed.symm.trans accepted
  exact ⟨compile_specimen, values, packed, unpacked.trans (congrArg Except.ok values)⟩

end Layout

end BinaryRecord
