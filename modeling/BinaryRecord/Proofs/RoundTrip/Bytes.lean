import BinaryRecord.Proofs.Packing.Slots
import BinaryRecord.Proofs.Unpacking.Slots

/-!
# Bytes that are unpacked and packed

Packing undoes unpacking except that a boolean is written as zero or one. So the records that
packing can produce are exactly the byte strings of the right size whose booleans are written so.
-/

set_option autoImplicit false

namespace BinaryRecord

namespace Slot

/-- Whether the byte at a position is a boolean. Positions count from the first slot. -/
def BoolAt (slots : List Slot) (position : Nat) : Prop :=
  ∃ (index : Nat) (slot : Slot), slots[index]? = some slot ∧ slot.field = .bool ∧
    widthSum (slots.take index) = position

theorem boolAt_cons_iff {slot : Slot} {later : List Slot} {position : Nat} :
    BoolAt (slot :: later) position ↔
      (slot.field = .bool ∧ position = 0) ∨
        ∃ following, BoolAt later following ∧ slot.width + following = position := by
  constructor
  · rintro ⟨index, other, found, truth, rfl⟩
    cases index with
    | zero =>
        cases found
        exact .inl ⟨truth, rfl⟩
    | succ index => exact .inr ⟨_, ⟨index, other, found, truth, rfl⟩, by simp⟩
  · rintro (⟨truth, rfl⟩ | ⟨_, ⟨index, other, found, truth, rfl⟩, rfl⟩)
    · exact ⟨0, slot, rfl, truth, rfl⟩
    · exact ⟨index + 1, other, found, truth, by simp⟩

theorem width_of_bool {slot : Slot} (sound : slot.Sound) (truth : slot.field = .bool) :
    slot.width = 1 := by
  have width := sound.scalar_width (by simp [truth])
  rwa [truth] at width

private theorem length_canonical_take {slot : Slot} {bytes : Bytes}
    (enough : slot.width ≤ bytes.length) :
    (slot.canonical (bytes.take slot.width)).length = slot.width := by
  rw [length_canonical, List.length_take, Nat.min_eq_left enough]

private theorem getElem?_canonicalAll_head {slot : Slot} {later : List Slot} {bytes : Bytes}
    {position : Nat} (enough : slot.width ≤ bytes.length) (inside : position < slot.width) :
    (canonicalAll (slot :: later) bytes)[position]? =
      (slot.canonical (bytes.take slot.width))[position]? := by
  rw [canonicalAll, List.getElem?_append_left (by rw [length_canonical_take enough]; exact inside)]

private theorem getElem?_canonicalAll_tail {slot : Slot} {later : List Slot} {bytes : Bytes}
    (enough : slot.width ≤ bytes.length) (following : Nat) :
    (canonicalAll (slot :: later) bytes)[slot.width + following]? =
      (canonicalAll later (bytes.drop slot.width))[following]? := by
  have headLength := length_canonical_take enough
  rw [canonicalAll, List.getElem?_append_right (by omega), headLength, Nat.add_sub_cancel_left]

theorem getElem?_canonicalAll_of_boolAt {slots : List Slot} {bytes : Bytes} {position : Nat}
    (sound : ∀ slot ∈ slots, slot.Sound) (enough : widthSum slots ≤ bytes.length)
    (truth : BoolAt slots position) :
    (canonicalAll slots bytes)[position]? =
      bytes[position]?.map fun byte => if byte = 0 then 0 else 1 := by
  induction slots generalizing bytes position with
  | nil =>
      obtain ⟨index, slot, found, _⟩ := truth
      simp at found
  | cons slot later laterIH =>
      rw [widthSum_cons] at enough
      rcases boolAt_cons_iff.mp truth with ⟨headTruth, rfl⟩ | ⟨following, tailTruth, rfl⟩
      · have width := width_of_bool (sound slot List.mem_cons_self) headTruth
        rw [getElem?_canonicalAll_head (by omega) (by omega), canonical, if_pos headTruth, width,
          List.getElem?_map, List.getElem?_take_of_lt Nat.one_pos]
      · have tailEnough : widthSum later ≤ (bytes.drop slot.width).length := by
          rw [List.length_drop]
          omega
        rw [getElem?_canonicalAll_tail (by omega),
          laterIH (fun other member => sound other (.tail slot member)) tailEnough tailTruth,
          List.getElem?_drop]

theorem getElem?_canonicalAll_of_not_boolAt {slots : List Slot} {bytes : Bytes} {position : Nat}
    (sound : ∀ slot ∈ slots, slot.Sound) (enough : widthSum slots ≤ bytes.length)
    (other : ¬ BoolAt slots position) :
    (canonicalAll slots bytes)[position]? = bytes[position]? := by
  induction slots generalizing bytes position with
  | nil => rfl
  | cons slot later laterIH =>
      rw [widthSum_cons] at enough
      by_cases inside : position < slot.width
      · rw [getElem?_canonicalAll_head (by omega) inside]
        by_cases truth : slot.field = .bool
        · have width := width_of_bool (sound slot List.mem_cons_self) truth
          exact absurd (boolAt_cons_iff.mpr (.inl ⟨truth, by omega⟩)) other
        · rw [canonical, if_neg truth, List.getElem?_take_of_lt inside]
      · obtain ⟨following, rfl⟩ := Nat.exists_eq_add_of_le (Nat.le_of_not_lt inside)
        have tailEnough : widthSum later ≤ (bytes.drop slot.width).length := by
          rw [List.length_drop]
          omega
        have tailOther : ¬ BoolAt later following := fun tailTruth =>
          other (boolAt_cons_iff.mpr (.inr ⟨following, tailTruth, rfl⟩))
        rw [getElem?_canonicalAll_tail (by omega),
          laterIH (fun other member => sound other (.tail slot member)) tailEnough tailOther,
          List.getElem?_drop]

theorem encode_restore {slot : Slot} {order : ByteOrder} {value : Value} {bytes : Bytes}
    (encoded : slot.encode order value = .ok bytes) :
    slot.encode order (slot.restore value) = .ok bytes := by
  rcases encode_eq_ok_iff.mp encoded with ⟨string, content, rfl, long, rfl⟩ | ⟨scalar, kinds, _⟩
  · refine encode_eq_ok_iff.mpr (.inl ⟨string, _, rfl, ?_, ?_⟩)
    · exact Nat.le_of_eq (List.length_take_of_le long).symm
    · rw [List.take_take, Nat.min_self]
  · cases value with
    | bytes content => exact absurd (Field.kind_eq_bytes_iff.mp kinds.symm) scalar
    | _ => exact encoded

theorem canonical_encode {slot : Slot} {order : ByteOrder} {value : Value} {bytes : Bytes}
    (sound : slot.Sound) (encoded : slot.encode order value = .ok bytes) :
    slot.canonical bytes = bytes := by
  have again := encode_read order sound (length_of_encode sound encoded)
  rw [read_encode sound encoded, encode_restore encoded] at again
  exact (Except.ok.inj again).symm

theorem canonicalAll_encodeAll {order : ByteOrder} {index : Nat} {slots : List Slot}
    {values : List Value} {bytes : Bytes} (sound : ∀ slot ∈ slots, slot.Sound)
    (full : values.length = slots.length)
    (encoded : encodeAll order index slots values = .ok bytes) :
    canonicalAll slots bytes = bytes := by
  induction slots generalizing index values bytes with
  | nil => rfl
  | cons slot later laterIH =>
      cases values with
      | nil => simp at full
      | cons value others =>
          obtain ⟨head, tail, headEncoded, tailEncoded, rfl⟩ := encodeAll_cons_eq_ok_iff.mp encoded
          have headSound := sound slot List.mem_cons_self
          have headLength := length_of_encode headSound headEncoded
          rw [canonicalAll, List.take_left' headLength, List.drop_left' headLength,
            canonical_encode headSound headEncoded,
            laterIH (fun other member => sound other (.tail slot member)) (by simpa using full)
              tailEncoded]

end Slot

namespace Layout

def BoolAt (layout : Layout) (position : Nat) : Prop :=
  ∃ (index : Nat) (slot : Slot), layout.slots[index]? = some slot ∧ slot.field = .bool ∧
    layout.offset index = position

/-- Whether every boolean among the bytes of a record is zero or one. -/
def Canonical (layout : Layout) (bytes : Bytes) : Prop :=
  ∀ (position : Nat) (byte : UInt8), layout.BoolAt position → bytes[position]? = some byte →
    byte = 0 ∨ byte = 1

theorem canonicalAll_eq_self_iff {layout : Layout} {bytes : Bytes}
    (enough : Slot.widthSum layout.slots ≤ bytes.length) :
    Slot.canonicalAll layout.slots bytes = bytes ↔ layout.Canonical bytes := by
  have sound : ∀ slot ∈ layout.slots, slot.Sound := fun _ member => sound_of_mem_slots member
  constructor
  · intro same position byte truth found
    have written := Slot.getElem?_canonicalAll_of_boolAt sound enough truth
    rw [same, found] at written
    by_cases zero : byte = 0
    · exact .inl zero
    · simp only [Option.map_some, zero, if_false, Option.some.injEq] at written
      exact .inr written
  · intro canonical
    apply List.ext_getElem?
    intro position
    by_cases truth : layout.BoolAt position
    · rw [Slot.getElem?_canonicalAll_of_boolAt sound enough truth]
      cases found : bytes[position]? with
      | none => rfl
      | some byte => rcases canonical position byte truth found with rfl | rfl <;> rfl
    · exact Slot.getElem?_canonicalAll_of_not_boolAt sound enough truth

theorem pack_readAll {layout : Layout} {bytes : Bytes} (exact : layout.Exact)
    (full : bytes.length = layout.size) :
    layout.pack (Slot.readAll layout.order layout.slots bytes) =
      .ok (Slot.canonicalAll layout.slots bytes) := by
  rw [pack_eq exact, if_pos (by simp)]
  exact Slot.encodeAll_readAll layout.order 0 (fun _ member => sound_of_mem_slots member)
    (full.trans exact.size)

theorem length_and_canonical_of_pack {layout : Layout} {values : List Value} {bytes : Bytes}
    (exact : layout.Exact) (accepted : layout.pack values = .ok bytes) :
    bytes.length = layout.size ∧ layout.Canonical bytes := by
  have sound : ∀ slot ∈ layout.slots, slot.Sound := fun _ member => sound_of_mem_slots member
  obtain ⟨full, encoded⟩ := encodeAll_of_pack exact accepted
  have length := Slot.length_of_encodeAll sound full encoded
  have unchanged := Slot.canonicalAll_encodeAll sound full encoded
  exact ⟨length.trans exact.size.symm,
    (canonicalAll_eq_self_iff (Nat.le_of_eq length.symm)).mp unchanged⟩

/-- Every buffer of the right size is read and written back with its booleans as zero or one, and
the records that can be written are those whose booleans are so already. -/
theorem pack_unpack {source : String} {layout : Layout}
    (compiled : compile source = .ok layout) :
    (∀ buffer : Bytes, buffer.length = layout.size →
      ∃ values packed, layout.unpack buffer = .ok values ∧ layout.pack values = .ok packed ∧
        packed.length = buffer.length ∧
        (∀ (position : Nat) (byte : UInt8), buffer[position]? = some byte →
          (layout.BoolAt position ∧ byte ≠ 0 → packed[position]? = some 1) ∧
          (¬ (layout.BoolAt position ∧ byte ≠ 0) → packed[position]? = some byte)) ∧
        (packed = buffer ↔ layout.Canonical buffer)) ∧
    (∀ bytes : Bytes, (∃ values, layout.pack values = .ok bytes) ↔
      bytes.length = layout.size ∧ layout.Canonical bytes) := by
  have exact := exact_of_compile compiled
  have sound : ∀ slot ∈ layout.slots, slot.Sound := fun _ member => sound_of_mem_slots member
  have enough {bytes : Bytes} (full : bytes.length = layout.size) :
      Slot.widthSum layout.slots ≤ bytes.length := Nat.le_of_eq (full.trans exact.size).symm
  constructor
  · intro buffer full
    refine ⟨_, _, unpack_of_length exact full, pack_readAll exact full, by simp, ?_,
      canonicalAll_eq_self_iff (enough full)⟩
    intro position byte found
    constructor
    · rintro ⟨truth, nonzero⟩
      rw [Slot.getElem?_canonicalAll_of_boolAt sound (enough full) truth, found]
      simp [nonzero]
    · intro other
      by_cases truth : layout.BoolAt position
      · have zero : byte = 0 := Classical.not_not.mp fun nonzero => other ⟨truth, nonzero⟩
        rw [Slot.getElem?_canonicalAll_of_boolAt sound (enough full) truth, found, zero]
        rfl
      · rw [Slot.getElem?_canonicalAll_of_not_boolAt sound (enough full) truth, found]
  · intro bytes
    constructor
    · rintro ⟨values, accepted⟩
      exact length_and_canonical_of_pack exact accepted
    · rintro ⟨full, canonical⟩
      refine ⟨_, (pack_readAll exact full).trans ?_⟩
      rw [(canonicalAll_eq_self_iff (enough full)).mpr canonical]

/-- A boolean that is neither zero nor one. -/
theorem pack_unpack_specimen :
    compile ">2se?" = .ok specimen ∧ specimen.BoolAt 4 ∧
      ∃ values packed, specimen.unpack [97, 98, 0x7E, 1, 5] = .ok values ∧
        specimen.pack values = .ok packed ∧ packed[4]? = some 1 ∧
        packed ≠ [97, 98, 0x7E, 1, 5] := by
  have truth : specimen.BoolAt 4 := ⟨2, ⟨.bool, 1⟩, rfl, rfl, rfl⟩
  have buffers := (pack_unpack compile_specimen).1
  obtain ⟨values, packed, unpacked, repacked, _, written, same⟩ :=
    buffers [97, 98, 0x7E, 1, 5] rfl
  refine ⟨compile_specimen, truth, values, packed, unpacked, repacked, ?_, ?_⟩
  · exact (written 4 5 rfl).1 ⟨truth, by decide⟩
  · intro unchanged
    have canonical := same.mp unchanged 4 5 truth rfl
    revert canonical
    decide

end Layout

end BinaryRecord
