import BinaryRecord.Proofs.Slot.Sequence

/-!
# Mirrored slots

The two byte orders differ by a reversal of the bytes of every scalar slot in its place. Byte
strings stay as they are. Mirroring is its own inverse. Main statements: `Slot.encodeAll_big` and
`Slot.readAll_big`.
-/

set_option autoImplicit false

namespace BinaryRecord.Slot

/-- The bytes of a slot in the other byte order. -/
def mirror (slot : Slot) (bytes : Bytes) : Bytes :=
  if slot.field = .bytes then bytes else bytes.reverse

/-- Mirrors every slot in its place. Bytes behind the last slot stay as they are. -/
def mirrorAll : List Slot → Bytes → Bytes
  | [], bytes => bytes
  | slot :: slots, bytes =>
      slot.mirror (bytes.take slot.width) ++ mirrorAll slots (bytes.drop slot.width)

@[simp] theorem length_mirror (slot : Slot) (bytes : Bytes) :
    (slot.mirror bytes).length = bytes.length := by
  unfold mirror
  split <;> simp

@[simp] theorem mirror_mirror (slot : Slot) (bytes : Bytes) :
    slot.mirror (slot.mirror bytes) = bytes := by
  unfold mirror
  split <;> simp

@[simp] theorem length_mirrorAll (slots : List Slot) (bytes : Bytes) :
    (mirrorAll slots bytes).length = bytes.length := by
  induction slots generalizing bytes with
  | nil => rfl
  | cons slot later laterIH =>
      simp only [mirrorAll, List.length_append, length_mirror, laterIH, List.length_take,
        List.length_drop]
      omega

/-- The bytes of the first slot are mirrored apart from those behind it. -/
theorem mirrorAll_cons {slot : Slot} {later : List Slot} {front : Bytes} (rest : Bytes)
    (full : front.length = slot.width) :
    mirrorAll (slot :: later) (front ++ rest) = slot.mirror front ++ mirrorAll later rest := by
  rw [mirrorAll, List.take_left' full, List.drop_left' full]

theorem exists_front {width total : Nat} {bytes : Bytes} (enough : width + total ≤ bytes.length) :
    ∃ front rest, bytes = front ++ rest ∧ front.length = width ∧ total ≤ rest.length := by
  refine ⟨bytes.take width, bytes.drop width, (List.take_append_drop width bytes).symm, ?_, ?_⟩
  · rw [List.length_take]
    omega
  · rw [List.length_drop]
    omega

theorem mirrorAll_mirrorAll {slots : List Slot} {bytes : Bytes}
    (enough : widthSum slots ≤ bytes.length) :
    mirrorAll slots (mirrorAll slots bytes) = bytes := by
  induction slots generalizing bytes with
  | nil => rfl
  | cons slot later laterIH =>
      obtain ⟨front, rest, rfl, full, restEnough⟩ := exists_front (widthSum_cons _ _ ▸ enough)
      have mirroredFull : (slot.mirror front).length = slot.width :=
        (length_mirror slot front).trans full
      rw [mirrorAll_cons rest full, mirrorAll_cons _ mirroredFull, mirror_mirror,
        laterIH restEnough]

/-- Every slot is mirrored in its own place. -/
theorem span_mirrorAll {slots : List Slot} {bytes : Bytes} {index : Nat} {slot : Slot}
    (enough : widthSum slots ≤ bytes.length) (found : slots[index]? = some slot) :
    ((mirrorAll slots bytes).drop (widthSum (slots.take index))).take slot.width =
      slot.mirror ((bytes.drop (widthSum (slots.take index))).take slot.width) := by
  induction slots generalizing bytes index with
  | nil => simp at found
  | cons first later laterIH =>
      obtain ⟨front, rest, rfl, full, restEnough⟩ := exists_front (widthSum_cons _ _ ▸ enough)
      have mirroredFull : (first.mirror front).length = first.width :=
        (length_mirror first front).trans full
      rw [mirrorAll_cons rest full]
      cases index with
      | zero =>
          cases found
          simp only [List.take_zero, widthSum_nil, List.drop_zero, List.take_left' full,
            List.take_left' mirroredFull]
      | succ index =>
          rw [List.take_succ_cons, widthSum_cons, ← List.drop_drop, ← List.drop_drop,
            List.drop_left' full, List.drop_left' mirroredFull]
          exact laterIH restEnough found

theorem encode_big (slot : Slot) (value : Value) :
    slot.encode .big value = (slot.encode .little value).map slot.mirror := by
  by_cases string : slot.field = .bytes
  · simp only [encode, Field.isBytes, string, decide_true, if_true]
    cases Packer.encodeString slot.width value with
    | error error => rfl
    | ok bytes => simp [Except.map, mirror, string]
  · simp only [encode, Field.isBytes, string, decide_false, Bool.false_eq_true, if_false]
    by_cases kinds : value.kind = slot.field.kind
    · rw [Field.encode_of_kind string kinds, Field.encode_of_kind string kinds, Except.map, mirror,
        if_neg string]
      rfl
    · rw [Field.encode_of_kind_ne kinds, Field.encode_of_kind_ne kinds]
      rfl

theorem read_big {slot : Slot} {bytes : Bytes} (full : bytes.length = slot.width) :
    slot.read .big bytes = slot.read .little (slot.mirror bytes) := by
  have whole : bytes.take slot.width = bytes := List.take_of_length_le (Nat.le_of_eq full)
  have mirroredWhole : (slot.mirror bytes).take slot.width = slot.mirror bytes :=
    List.take_of_length_le (Nat.le_of_eq ((length_mirror slot bytes).trans full))
  rw [read, read, whole, mirroredWhole]
  by_cases string : slot.field = .bytes <;>
    simp [string, mirror, Field.isBytes, ByteOrder.read, ByteOrder.arrange]

/-- What is written in one order is what is written in the other, mirrored. Errors are the same. -/
theorem encodeAll_big (start : Nat) {slots : List Slot} {values : List Value}
    (sound : ∀ slot ∈ slots, slot.Sound) :
    encodeAll .big start slots values =
      (encodeAll .little start slots values).map (mirrorAll slots) := by
  induction slots generalizing start values with
  | nil => rfl
  | cons slot later laterIH =>
      obtain ⟨slotSound, laterSound⟩ := List.forall_mem_cons.mp sound
      cases values with
      | nil =>
          have empty := List.length_eq_zero_iff.mp (length_mirrorAll (slot :: later) [])
          exact congrArg Except.ok empty.symm
      | cons value others =>
          simp only [encodeAll, encode_big, laterIH (start + 1) laterSound]
          cases encoded : slot.encode .little value with
          | error error => rfl
          | ok head =>
              have full := length_of_encode slotSound encoded
              cases encodeAll .little (start + 1) later others with
              | error error => rfl
              | ok tail => exact congrArg Except.ok (mirrorAll_cons tail full).symm

/-- What is read in one order is what is read in the other from mirrored bytes. -/
theorem readAll_big {slots : List Slot} {bytes : Bytes}
    (enough : widthSum slots ≤ bytes.length) :
    readAll .big slots bytes = readAll .little slots (mirrorAll slots bytes) := by
  induction slots generalizing bytes with
  | nil => rfl
  | cons slot later laterIH =>
      obtain ⟨front, rest, rfl, full, restEnough⟩ := exists_front (widthSum_cons _ _ ▸ enough)
      have mirroredFull : (slot.mirror front).length = slot.width :=
        (length_mirror slot front).trans full
      rw [mirrorAll_cons rest full, readAll, readAll, read_append full, read_append mirroredFull,
        read_big full, List.drop_left' full, List.drop_left' mirroredFull, laterIH restEnough]

end BinaryRecord.Slot
