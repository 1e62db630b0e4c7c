import BinaryRecord.Proofs.Slot.Codec
import BinaryRecord.Unpacking.Error

/-!
# Slots in sequence

A record as nothing but its slots: values are encoded and bytes decoded slot by slot, each at the
place where the slot before it ends. Reading undoes writing up to the cut of byte strings, and
writing undoes reading up to the truth values of booleans.
-/

set_option autoImplicit false

attribute [local instance (high)] Zero.ofOfNat0

namespace BinaryRecord.Slot

def widthSum (slots : List Slot) : Nat :=
  (slots.map width).sum

@[simp] theorem widthSum_nil : widthSum [] = 0 := rfl

@[simp] theorem widthSum_cons (slot : Slot) (later : List Slot) :
    widthSum (slot :: later) = slot.width + widthSum later := by
  simp [widthSum]

theorem length_le_widthSum {slots : List Slot} (sound : ∀ slot ∈ slots, slot.Sound) :
    slots.length ≤ widthSum slots := by
  induction slots with
  | nil => exact Nat.le_refl 0
  | cons slot later laterIH =>
      obtain ⟨slotSound, laterSound⟩ := List.forall_mem_cons.mp sound
      have positive := slotSound.width_pos
      have rest := laterIH laterSound
      rw [List.length_cons, widthSum_cons]
      omega

/-- The bytes of values in their slots, or the first misfit. Values count from `index`. -/
def encodeAll (order : ByteOrder) : Nat → List Slot → List Value → Except PackError Bytes
  | index, slot :: slots, value :: values =>
      match slot.encode order value with
      | .ok bytes => (encodeAll order (index + 1) slots values).map (bytes ++ ·)
      | .error error => .error (.ofField index error)
  | _, _, _ => .ok []

/-- What decoding gives: values while bytes last, and an error at the slot that is not full. -/
def decodeAll (order : ByteOrder) : Nat → List Slot → Bytes → List (Except UnpackError Value)
  | _, [], _ => []
  | index, slot :: slots, bytes =>
      match slot.decode order bytes with
      | .ok value => .ok value :: decodeAll order (index + 1) slots (bytes.drop slot.width)
      | .error error => [.error (.ofField index error)]

def readAll (order : ByteOrder) : List Slot → Bytes → List Value
  | [], _ => []
  | slot :: slots, bytes => slot.read order bytes :: readAll order slots (bytes.drop slot.width)

def canonicalAll : List Slot → Bytes → Bytes
  | [], bytes => bytes
  | slot :: slots, bytes =>
      slot.canonical (bytes.take slot.width) ++ canonicalAll slots (bytes.drop slot.width)

@[simp] theorem length_readAll (order : ByteOrder) (slots : List Slot) (bytes : Bytes) :
    (readAll order slots bytes).length = slots.length := by
  induction slots generalizing bytes with
  | nil => rfl
  | cons slot later laterIH => simp [readAll, laterIH]

theorem getElem?_readAll {slots : List Slot} {index : Nat} {slot : Slot} (order : ByteOrder)
    (bytes : Bytes) (found : slots[index]? = some slot) :
    (readAll order slots bytes)[index]? =
      some (slot.read order (bytes.drop (widthSum (slots.take index)))) := by
  induction slots generalizing bytes index with
  | nil => simp at found
  | cons first later laterIH =>
      cases index with
      | zero =>
          cases found
          rfl
      | succ index => simpa [readAll, List.drop_drop] using laterIH (bytes.drop first.width) found

theorem length_decodeAll_le (order : ByteOrder) (index : Nat) (slots : List Slot)
    (bytes : Bytes) : (decodeAll order index slots bytes).length ≤ slots.length := by
  induction slots generalizing index bytes with
  | nil => exact Nat.le_refl 0
  | cons slot later laterIH =>
      simp only [decodeAll]
      cases slot.decode order bytes with
      | ok value => exact Nat.succ_le_succ (laterIH (index + 1) (bytes.drop slot.width))
      | error error => exact Nat.succ_le_succ (Nat.zero_le later.length)

@[simp] theorem length_canonicalAll (slots : List Slot) (bytes : Bytes) :
    (canonicalAll slots bytes).length = bytes.length := by
  induction slots generalizing bytes with
  | nil => rfl
  | cons slot later laterIH =>
      simp only [canonicalAll, List.length_append, length_canonical, laterIH, List.length_take,
        List.length_drop]
      omega

theorem encodeAll_cons_eq_ok_iff {order : ByteOrder} {index : Nat} {slot : Slot}
    {slots : List Slot} {value : Value} {values : List Value} {bytes : Bytes} :
    encodeAll order index (slot :: slots) (value :: values) = .ok bytes ↔
      ∃ head tail, slot.encode order value = .ok head ∧
        encodeAll order (index + 1) slots values = .ok tail ∧ bytes = head ++ tail := by
  rw [encodeAll]
  cases first : slot.encode order value with
  | error error => simp
  | ok head =>
      cases others : encodeAll order (index + 1) slots values with
      | error error => simp [Except.map]
      | ok tail => simp [Except.map, eq_comm]

theorem decodeAll_of_le (order : ByteOrder) (index : Nat) {slots : List Slot} {bytes : Bytes}
    (sound : ∀ slot ∈ slots, slot.Sound) (enough : widthSum slots ≤ bytes.length) :
    decodeAll order index slots bytes = (readAll order slots bytes).map .ok := by
  induction slots generalizing index bytes with
  | nil => rfl
  | cons slot later laterIH =>
      rw [widthSum_cons] at enough
      have headEnough : slot.width ≤ bytes.length := by omega
      have tailEnough : widthSum later ≤ (bytes.drop slot.width).length := by
        rw [List.length_drop]
        omega
      have head := decode_of_le order (sound slot List.mem_cons_self) headEnough
      have tail := laterIH (index + 1) (fun other member => sound other (.tail slot member))
        tailEnough
      simp [decodeAll, readAll, head, tail]

theorem length_of_encodeAll {order : ByteOrder} {index : Nat} {slots : List Slot}
    {values : List Value} {bytes : Bytes} (sound : ∀ slot ∈ slots, slot.Sound)
    (full : values.length = slots.length)
    (encoded : encodeAll order index slots values = .ok bytes) :
    bytes.length = widthSum slots := by
  induction slots generalizing index values bytes with
  | nil =>
      obtain rfl : [] = bytes := by simpa [encodeAll] using encoded
      rfl
  | cons slot later laterIH =>
      cases values with
      | nil => simp at full
      | cons value others =>
          obtain ⟨head, tail, headEncoded, tailEncoded, rfl⟩ := encodeAll_cons_eq_ok_iff.mp encoded
          have headLength := length_of_encode (sound slot List.mem_cons_self) headEncoded
          have tailLength := laterIH (fun other member => sound other (.tail slot member))
            (by simpa using full) tailEncoded
          rw [List.length_append, headLength, tailLength, widthSum_cons]

/-- Reading undoes writing, up to the cut of byte strings. -/
theorem readAll_encodeAll {order : ByteOrder} {index : Nat} {slots : List Slot}
    {values : List Value} {bytes : Bytes} (sound : ∀ slot ∈ slots, slot.Sound)
    (full : values.length = slots.length)
    (encoded : encodeAll order index slots values = .ok bytes) :
    readAll order slots bytes = List.zipWith restore slots values := by
  induction slots generalizing index values bytes with
  | nil => simp [readAll]
  | cons slot later laterIH =>
      cases values with
      | nil => simp at full
      | cons value others =>
          obtain ⟨head, tail, headEncoded, tailEncoded, rfl⟩ := encodeAll_cons_eq_ok_iff.mp encoded
          have slotSound := sound slot List.mem_cons_self
          have headLength := length_of_encode slotSound headEncoded
          have tailRead := laterIH (fun other member => sound other (.tail slot member))
            (by simpa using full) tailEncoded
          rw [readAll, List.drop_append_of_le_length (Nat.le_of_eq headLength.symm),
            List.drop_of_length_le (Nat.le_of_eq headLength), List.nil_append, tailRead,
            read_append headLength, read_encode slotSound headEncoded, List.zipWith_cons_cons]

/-- Writing undoes reading, up to the truth values of booleans. -/
theorem encodeAll_readAll (order : ByteOrder) (index : Nat) {slots : List Slot} {bytes : Bytes}
    (sound : ∀ slot ∈ slots, slot.Sound) (full : bytes.length = widthSum slots) :
    encodeAll order index slots (readAll order slots bytes) = .ok (canonicalAll slots bytes) := by
  induction slots generalizing index bytes with
  | nil =>
      obtain rfl := List.length_eq_zero_iff.mp full
      rfl
  | cons slot later laterIH =>
      rw [widthSum_cons] at full
      have headLength : (bytes.take slot.width).length = slot.width := by
        rw [List.length_take]
        omega
      have headRead : slot.read order bytes = slot.read order (bytes.take slot.width) := by
        simp [read, List.take_take]
      have tailFull : (bytes.drop slot.width).length = widthSum later := by
        rw [List.length_drop]
        omega
      have headEncoded := encode_read order (sound slot List.mem_cons_self) headLength
      have tailEncoded := laterIH (index + 1) (fun other member => sound other (.tail slot member))
        tailFull
      rw [readAll, headRead]
      exact encodeAll_cons_eq_ok_iff.mpr ⟨_, _, headEncoded, tailEncoded, rfl⟩

end BinaryRecord.Slot
