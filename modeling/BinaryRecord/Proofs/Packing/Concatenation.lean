import BinaryRecord.Proofs.Layout.Concatenation
import BinaryRecord.Proofs.Packing.Calls
import BinaryRecord.Proofs.Unpacking.Slots

/-!
# Records in a row

The record of a layout that joins two others is a record of the first and behind it a record of the
second. Nothing passes from one to the other but the number of values, by which the indices of
errors move. Main statement: `Layout.Joins.pack_append`.
-/

set_option autoImplicit false

namespace BinaryRecord

/-- The error of values that stand behind others. -/
def PackError.shift (distance : Nat) : PackError → PackError
  | .arity expected actual => .arity expected actual
  | .typeMismatch index tag name expected found =>
      .typeMismatch (index + distance) tag name expected found
  | .stringLength index expected actual => .stringLength (index + distance) expected actual
  | .codec index cause => .codec (index + distance) cause
  | .offsetRange offset size => .offsetRange offset size
  | .transfer fault => .transfer fault

theorem PackError.shift_ofField (distance index : Nat) (cause : FieldError) :
    (ofField index cause).shift distance = ofField (index + distance) cause := by
  cases cause <;> rfl

namespace Slot

/-- Where values begin to count has a part in the indices of errors only. -/
theorem encodeAll_shift (order : ByteOrder) (distance start : Nat) (slots : List Slot)
    (values : List Value) :
    encodeAll order (start + distance) slots values =
      (encodeAll order start slots values).mapError (.shift distance) := by
  induction slots generalizing start values with
  | nil => rfl
  | cons slot later laterIH =>
      cases values with
      | nil => rfl
      | cons value others =>
          have tail := laterIH (start + 1) others
          rw [Nat.add_right_comm] at tail
          simp only [encodeAll, tail]
          cases slot.encode order value with
          | error cause => exact congrArg Except.error (PackError.shift_ofField _ _ _).symm
          | ok bytes => cases encodeAll order (start + 1) later others <;> rfl

theorem readAll_append (order : ByteOrder) {slots : List Slot} (later : List Slot)
    {bytes : Bytes} (rest : Bytes) (full : bytes.length = widthSum slots) :
    readAll order (slots ++ later) (bytes ++ rest) =
      readAll order slots bytes ++ readAll order later rest := by
  induction slots generalizing bytes with
  | nil =>
      obtain rfl := List.length_eq_zero_iff.mp full
      rfl
  | cons slot slots slotsIH =>
      rw [widthSum_cons] at full
      have enough : slot.width ≤ bytes.length := by omega
      have tailFull : (bytes.drop slot.width).length = widthSum slots := by
        rw [List.length_drop]
        omega
      have head : slot.read order (bytes ++ rest) = slot.read order bytes := by
        simp only [read, List.take_append_of_le_length enough]
      simp only [List.cons_append, readAll, head, List.drop_append_of_le_length enough,
        slotsIH tailFull]

end Slot

namespace Layout

variable {head tail whole : Layout}

namespace Joins

theorem pack_append (joins : Joins head tail whole) {values others : List Value}
    (full : values.length = head.valueCount) (otherFull : others.length = tail.valueCount) :
    whole.pack (values ++ others) =
      (head.pack values).bind fun packed =>
        ((tail.pack others).mapError (.shift head.valueCount)).map (packed ++ ·) := by
  have headFull := full.trans joins.head_exact.valueCount
  have tailFull := otherFull.trans joins.tail_exact.valueCount
  have wholeFull : (values ++ others).length = whole.slots.length := by
    rw [joins.slots, List.length_append, List.length_append, headFull, tailFull]
  rw [pack_eq joins.whole_exact, if_pos wholeFull, pack_eq joins.head_exact, if_pos headFull,
    pack_eq joins.tail_exact, if_pos tailFull, joins.slots, Slot.encodeAll_append _ _ headFull,
    Slot.encodeAll_shift, joins.head_order, joins.tail_order, joins.head_exact.valueCount]

/-- A record that a buffer can hold has parts that a buffer can hold. -/
theorem reserved (joins : Joins head tail whole) (reserved : whole.size < Size.bufferLimit) :
    head.size < Size.bufferLimit ∧ tail.size < Size.bufferLimit := by
  have parts := joins.size
  omega

theorem packCall_append (joins : Joins head tail whole) (reserved : whole.size < Size.bufferLimit)
    {values others : List Value} (full : values.length = head.valueCount)
    (otherFull : others.length = tail.valueCount) :
    whole.packCall (values ++ others) =
      (head.packCall values).bind fun packed =>
        ((tail.packCall others).mapError (.map (.shift head.valueCount))).map (packed ++ ·) := by
  obtain ⟨headReserved, tailReserved⟩ := joins.reserved reserved
  rw [packCall_of_lt reserved, packCall_of_lt headReserved, packCall_of_lt tailReserved,
    joins.pack_append full otherFull]
  cases head.pack values with
  | error error => rfl
  | ok packed => cases tail.pack others <;> rfl

theorem unpack_append (joins : Joins head tail whole) {buffer other : Bytes}
    (full : buffer.length = head.size) (otherFull : other.length = tail.size) :
    ∃ values others, head.unpack buffer = .ok values ∧ tail.unpack other = .ok others ∧
      whole.unpack (buffer ++ other) = .ok (values ++ others) := by
  have wholeFull : (buffer ++ other).length = whole.size := by
    rw [List.length_append, full, otherFull, joins.size]
  refine ⟨_, _, unpack_of_length joins.head_exact full,
    unpack_of_length joins.tail_exact otherFull, ?_⟩
  rw [unpack_of_length joins.whole_exact wholeFull, joins.slots,
    Slot.readAll_append _ _ _ (full.trans joins.head_exact.size), joins.head_order,
    joins.tail_order]

end Joins

/-- The layout of two texts in a row packs what their layouts pack, in a row, and fails as the first
of them does or else as the second, whose values stand behind those of the first. Only a record that
is too long for a buffer panics, even where its parts are not and their values do not fit. It
unpacks what they unpack. The layout of the text behind is that of its groups in the order of the
text in front. -/
theorem packCall_unpack_append {front back marker : String} (compiled : compile front = .ok head)
    (marked : head.order.Marked marker.toList) (otherCompiled : compile (marker ++ back) = .ok tail)
    (wholeCompiled : compile (front ++ back) = .ok whole) :
    (∀ values others : List Value,
      values.length = head.valueCount → others.length = tail.valueCount →
      (Size.bufferLimit ≤ whole.size →
        whole.packCall (values ++ others) = .error (.panicked .capacityOverflow)) ∧
      (whole.size < Size.bufferLimit →
        (∀ packed otherPacked,
          head.packCall values = .ok packed → tail.packCall others = .ok otherPacked →
          whole.packCall (values ++ others) = .ok (packed ++ otherPacked)) ∧
        (∀ error, head.packCall values = .error (.answered error) →
          whole.packCall (values ++ others) = .error (.answered error)) ∧
        (∀ packed error,
          head.packCall values = .ok packed → tail.packCall others = .error (.answered error) →
          whole.packCall (values ++ others) =
            .error (.answered (error.shift head.valueCount))) ∧
        ∀ panic, head.packCall values ≠ .error (.panicked panic) ∧
          tail.packCall others ≠ .error (.panicked panic))) ∧
    ∀ buffer other : Bytes, buffer.length = head.size → other.length = tail.size →
      ∃ values others, head.unpack buffer = .ok values ∧ tail.unpack other = .ok others ∧
        whole.unpack (buffer ++ other) = .ok (values ++ others) := by
  have joins := joins_of_compile compiled marked otherCompiled wholeCompiled
  refine ⟨?_, fun buffer other => joins.unpack_append⟩
  intro values others full otherFull
  constructor
  · intro beyond
    apply packCall_of_le beyond
    rw [List.length_append, full, otherFull, joins.valueCount]
  · intro reserved
    obtain ⟨headReserved, tailReserved⟩ := joins.reserved reserved
    have joined := joins.packCall_append reserved full otherFull
    refine ⟨?_, ?_, ?_, fun panic =>
      ⟨packCall_ne_panicked headReserved panic, packCall_ne_panicked tailReserved panic⟩⟩
    · intro packed otherPacked accepted otherAccepted
      rw [joined, accepted, otherAccepted]
      rfl
    · intro error rejected
      rw [joined, rejected]
      rfl
    · intro packed error accepted rejected
      rw [joined, accepted, rejected]
      rfl

/-- A byte string in front of a number and a boolean, with values that fit and a boolean that does
not. A number that does not fit is not refused in front of a byte string that is as long as a buffer
can be. -/
theorem packCall_unpack_append_specimen :
    ∃ head tail : Layout, compile ">2s" = .ok head ∧ compile (">" ++ "e?") = .ok tail ∧
      compile (">2s" ++ "e?") = .ok specimen ∧
      specimen.packCall ([.bytes [97, 98]] ++ [.float16 0x7E01, .bool true]) =
        .ok ([97, 98] ++ [0x7E, 1, 1]) ∧
      specimen.packCall ([.bytes [97, 98]] ++ [.float16 0x7E01, .uint8 1]) =
        .error (.answered (.typeMismatch (1 + 1) '?' "_Bool" .bool .uint8)) ∧
      specimen.packCall ([.bytes [97]] ++ [.float16 0x7E01, .uint8 1]) =
        .error (.answered (.stringLength 0 2 1)) ∧
      specimen.unpack ([97, 98] ++ [0x7E, 1, 1]) =
        .ok ([.bytes [97, 98]] ++ [.float16 0x7E01, .bool true]) ∧
      ∃ byte string both : Layout, compile "B" = .ok byte ∧
        compile ("<" ++ "9223372036854775807s") = .ok string ∧
        compile ("B" ++ "9223372036854775807s") = .ok both ∧
        byte.packCall [.int8 0] =
          .error (.answered (.typeMismatch 0 'B' "unsigned char" .uint8 .int8)) ∧
        both.packCall ([.int8 0] ++ [.bytes []]) = .error (.panicked .capacityOverflow) := by
  have compiled : compile ">2s" = .ok ⟨">2s", ⟨.big, [⟨2, .bytes, by decide⟩]⟩, 2, 1⟩ := rfl
  have otherCompiled : compile (">" ++ "e?") =
      .ok ⟨">e?", ⟨.big, [.single .half, .single .bool]⟩, 3, 2⟩ := rfl
  have wholeCompiled : compile (">2s" ++ "e?") = .ok specimen := rfl
  have marked : ByteOrder.big.Marked (">" : String).toList := .greater
  have byteCompiled : compile "B" = .ok ⟨"B", ⟨.little, [.single .unsignedChar]⟩, 1, 1⟩ := rfl
  have stringCompiled : compile ("<" ++ "9223372036854775807s") =
      .ok ⟨"<9223372036854775807s", ⟨.little, [⟨9223372036854775807, .bytes, by decide⟩]⟩,
        9223372036854775807, 1⟩ := rfl
  have bothCompiled : compile ("B" ++ "9223372036854775807s") =
      .ok ⟨"B9223372036854775807s",
        ⟨.little, [.single .unsignedChar, ⟨9223372036854775807, .bytes, by decide⟩]⟩,
        9223372036854775808, 2⟩ := rfl
  have littleMarked : ByteOrder.little.Marked ("<" : String).toList := .less
  obtain ⟨packs, unpacks⟩ := packCall_unpack_append compiled marked otherCompiled wholeCompiled
  obtain ⟨large, _⟩ :=
    packCall_unpack_append byteCompiled littleMarked stringCompiled bothCompiled
  refine ⟨_, _, compiled, otherCompiled, wholeCompiled, ?_, ?_, ?_, ?_, _, _, _, byteCompiled,
    stringCompiled, bothCompiled, rfl, (large _ _ rfl rfl).1 (Nat.le_refl _)⟩
  · exact ((packs _ _ rfl rfl).2 (by decide)).1 [97, 98] [0x7E, 1, 1] rfl rfl
  · exact ((packs _ _ rfl rfl).2 (by decide)).2.2.1 [97, 98]
      (.typeMismatch 1 '?' "_Bool" .bool .uint8) rfl rfl
  · exact ((packs _ _ rfl rfl).2 (by decide)).2.1 (.stringLength 0 2 1) rfl
  · obtain ⟨values, others, unpacked, otherUnpacked, joined⟩ :=
      unpacks [97, 98] [0x7E, 1, 1] rfl rfl
    have read := unpack_of_length (exact_of_compile compiled) (show [97, 98].length = 2 from rfl)
    have otherRead := unpack_of_length (exact_of_compile otherCompiled)
      (show [0x7E, 1, 1].length = 3 from rfl)
    obtain rfl := Except.ok.inj (read.symm.trans unpacked)
    obtain rfl := Except.ok.inj (otherRead.symm.trans otherUnpacked)
    exact joined

end Layout

end BinaryRecord
