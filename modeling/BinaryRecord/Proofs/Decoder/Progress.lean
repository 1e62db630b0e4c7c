import BinaryRecord.Proofs.Decoder.Slots
import BinaryRecord.Proofs.Layout.Totals

/-!
# The steps of a decoder

What each step of a decoder gives, and where the decoder stands after it, for a buffer of any
length. As many values are given as slots lie within the buffer; then comes an error if a slot is
left, and nothing from then on. Main statement: `Layout.decoder_steps`.
-/

set_option autoImplicit false

namespace BinaryRecord

namespace Slot

theorem read_take (slot : Slot) (order : ByteOrder) (bytes : Bytes) :
    slot.read order (bytes.take slot.width) = slot.read order bytes := by
  simp [read, List.take_take]

end Slot

namespace Decoder

/-- The decoder after a number of steps. -/
def after (decoder : Decoder) : Nat → Decoder
  | 0 => decoder
  | steps + 1 => (decoder.after steps).next.2

/-- What a step gives that follows a number of others. -/
def item (decoder : Decoder) (steps : Nat) : Option (Except UnpackError Value) :=
  (decoder.after steps).next.1

theorem next_of_failed {decoder : Decoder} (failed : decoder.failed = true) :
    decoder.next = (none, decoder) := by
  unfold next
  rw [if_pos failed]

theorem after_of_stopped {decoder : Decoder} {steps : Nat}
    (stopped : (decoder.after steps).next = (none, decoder.after steps)) (more : Nat) :
    decoder.after (steps + more) = decoder.after steps := by
  induction more with
  | zero => rfl
  | succ more moreIH => rw [← Nat.add_assoc, after, moreIH, stopped]

/-- The decoder of a layout over a buffer after `count` values and no error. -/
structure Given (layout : Layout) (buffer : Bytes) (count : Nat) (decoder : Decoder) : Prop where
  order_eq : decoder.order = layout.order
  buffer_eq : decoder.buffer = buffer
  offset_eq : decoder.offset = layout.offset count
  index_eq : decoder.index = count
  active : decoder.failed = false
  slots_eq : decoder.slots = layout.slots.drop count
  valid : decoder.Valid

namespace Given

variable {layout : Layout} {buffer : Bytes} {count : Nat} {decoder : Decoder} {slot : Slot}

theorem rest_eq (given : Given layout buffer count decoder) :
    decoder.rest = buffer.drop (layout.offset count) := by
  rw [rest, given.buffer_eq, given.offset_eq]

theorem slots_eq_cons (given : Given layout buffer count decoder)
    (found : layout.slots[count]? = some slot) :
    decoder.slots = slot :: layout.slots.drop (count + 1) := by
  obtain ⟨inside, rfl⟩ := List.getElem?_eq_some_iff.mp found
  rw [given.slots_eq, List.drop_eq_getElem_cons inside]

theorem passes {next : Decoder} (given : Given layout buffer count decoder)
    (found : layout.slots[count]? = some slot) (passes : Passes slot decoder next) :
    Given layout buffer (count + 1) next where
  order_eq := passes.order.trans given.order_eq
  buffer_eq := passes.buffer.trans given.buffer_eq
  offset_eq := by rw [passes.offset, given.offset_eq, Layout.offset_succ found]
  index_eq := by rw [passes.index, given.index_eq]
  active := passes.failed.trans given.active
  slots_eq := (List.cons.inj (passes.slots.symm.trans (given.slots_eq_cons found))).2
  valid := passes.valid

theorem next_of_full (given : Given layout buffer count decoder)
    (found : layout.slots[count]? = some slot)
    (enough : layout.offset count + slot.width ≤ buffer.length) :
    decoder.next.1 = some (.ok (slot.read layout.order (buffer.drop (layout.offset count)))) ∧
      Given layout buffer (count + 1) decoder.next.2 := by
  have sound := Layout.sound_of_mem_slots (List.mem_of_getElem? found)
  have long : slot.width ≤ (buffer.drop (layout.offset count)).length := by
    rw [List.length_drop]
    omega
  obtain ⟨next, passes, step⟩ :=
    next_of_slots_cons given.valid given.active (given.slots_eq_cons found)
  rw [given.rest_eq, given.order_eq, Slot.decode_of_le layout.order sound long] at step
  rw [step]
  exact ⟨rfl, given.passes found passes⟩

theorem next_of_short (given : Given layout buffer count decoder)
    (found : layout.slots[count]? = some slot)
    (short : buffer.length < layout.offset count + slot.width)
    (reached : layout.offset count ≤ buffer.length) :
    decoder.next =
      (some (.error (.truncated count slot.width (buffer.length - layout.offset count))),
        { decoder with failed := true }) := by
  have sound := Layout.sound_of_mem_slots (List.mem_of_getElem? found)
  have few : decoder.rest.length < slot.width := by
    rw [given.rest_eq, List.length_drop]
    omega
  obtain ⟨next, _, step⟩ :=
    next_of_slots_cons given.valid given.active (given.slots_eq_cons found)
  rw [Slot.decode_of_lt decoder.order sound few, given.rest_eq, List.length_drop] at step
  obtain rfl := given.index_eq
  exact step

theorem next_of_done (given : Given layout buffer count decoder)
    (done : layout.slots.length ≤ count) : decoder.next = (none, decoder) := by
  apply next_of_slots_nil given.valid
  rw [given.slots_eq, List.drop_of_length_le done]

end Given

end Decoder

namespace Layout

/-- How many slots, counted from the first, lie within the first `available` bytes. -/
def fullSlots (layout : Layout) (available : Nat) : Nat :=
  layout.slots.zipIdx.findIdx fun place => available < layout.offset place.2 + place.1.width

variable {layout : Layout} {available : Nat}

theorem fullSlots_le (layout : Layout) (available : Nat) :
    layout.fullSlots available ≤ layout.slots.length := by
  have bounded : layout.fullSlots available ≤ layout.slots.zipIdx.length :=
    List.findIdx_le_length
  rwa [List.length_zipIdx] at bounded

theorem end_le_of_lt_fullSlots {index : Nat} {slot : Slot}
    (before : index < layout.fullSlots available) (found : layout.slots[index]? = some slot) :
    layout.offset index + slot.width ≤ available := by
  obtain ⟨inside, rfl⟩ := List.getElem?_eq_some_iff.mp found
  have full := List.not_of_lt_findIdx before
  simpa using full

theorem lt_end_of_fullSlots {slot : Slot}
    (found : layout.slots[layout.fullSlots available]? = some slot) :
    available < layout.offset (layout.fullSlots available) + slot.width := by
  obtain ⟨inside, rfl⟩ := List.getElem?_eq_some_iff.mp found
  have indexed : layout.fullSlots available < layout.slots.zipIdx.length := by
    rwa [List.length_zipIdx]
  have place : layout.slots.zipIdx[layout.fullSlots available] =
      (layout.slots[layout.fullSlots available], layout.fullSlots available) := by simp
  have short := List.findIdx_getElem (w := indexed)
  change decide (available < layout.offset layout.slots.zipIdx[layout.fullSlots available].2 +
    layout.slots.zipIdx[layout.fullSlots available].1.width) = true at short
  rw [place] at short
  exact of_decide_eq_true short

theorem offset_le_of_le_fullSlots {count : Nat} (within : count ≤ layout.fullSlots available) :
    layout.offset count ≤ available := by
  cases count with
  | zero => exact Nat.zero_le available
  | succ count =>
      have inside : count < layout.slots.length :=
        Nat.lt_of_lt_of_le within (layout.fullSlots_le available)
      have found := List.getElem?_eq_getElem inside
      rw [offset_succ found]
      exact end_le_of_lt_fullSlots within found

theorem fullSlots_of_size_le (exact : layout.Exact) (long : layout.size ≤ available) :
    layout.fullSlots available = layout.slots.length := by
  apply Nat.le_antisymm (layout.fullSlots_le available)
  apply Nat.le_of_not_lt
  intro inside
  have found := List.getElem?_eq_getElem inside
  have short := lt_end_of_fullSlots found
  have bounded := end_le_size exact found
  omega

variable {buffer : Bytes} {steps : Nat}

theorem given_decoder (layout : Layout) (buffer : Bytes) :
    Decoder.Given layout buffer 0 (layout.decoder buffer) where
  order_eq := rfl
  buffer_eq := rfl
  offset_eq := rfl
  index_eq := rfl
  active := rfl
  slots_eq := rfl
  valid := layout.valid_decoder buffer

theorem given_after (within : steps ≤ layout.fullSlots buffer.length) :
    Decoder.Given layout buffer steps ((layout.decoder buffer).after steps) := by
  induction steps with
  | zero => exact layout.given_decoder buffer
  | succ steps stepsIH =>
      have inside : steps < layout.slots.length :=
        Nat.lt_of_lt_of_le within (layout.fullSlots_le buffer.length)
      have found := List.getElem?_eq_getElem inside
      have given := stepsIH (Nat.le_of_succ_le within)
      exact (given.next_of_full found (end_le_of_lt_fullSlots within found)).2

theorem item_of_lt_fullSlots {slot : Slot} (before : steps < layout.fullSlots buffer.length)
    (found : layout.slots[steps]? = some slot) :
    (layout.decoder buffer).item steps =
      some (.ok (slot.read layout.order (buffer.drop (layout.offset steps)))) :=
  ((given_after (Nat.le_of_lt before)).next_of_full found (end_le_of_lt_fullSlots before found)).1

theorem next_of_fullSlots {slot : Slot}
    (found : layout.slots[layout.fullSlots buffer.length]? = some slot) :
    ((layout.decoder buffer).after (layout.fullSlots buffer.length)).next =
      (some (.error (.truncated (layout.fullSlots buffer.length) slot.width
        (buffer.length - layout.offset (layout.fullSlots buffer.length)))),
      { (layout.decoder buffer).after (layout.fullSlots buffer.length) with failed := true }) :=
  (given_after (Nat.le_refl _)).next_of_short found (lt_end_of_fullSlots found)
    (offset_le_of_le_fullSlots (Nat.le_refl _))

theorem item_of_fullSlots_eq_length
    (complete : layout.fullSlots buffer.length = layout.slots.length) :
    (layout.decoder buffer).item (layout.fullSlots buffer.length) = none := by
  have done := (given_after (Nat.le_refl _)).next_of_done (Nat.le_of_eq complete.symm)
  rw [Decoder.item, done]

/-- Once the decoder has nothing to give, it stays where the last value ended. -/
theorem after_of_fullSlots_lt (late : layout.fullSlots buffer.length < steps) :
    ((layout.decoder buffer).after steps).next =
        (none, (layout.decoder buffer).after steps) ∧
      ((layout.decoder buffer).after steps).offset =
        layout.offset (layout.fullSlots buffer.length) ∧
      ((layout.decoder buffer).after steps).index = layout.fullSlots buffer.length := by
  obtain ⟨more, rfl⟩ := Nat.exists_eq_add_of_lt late
  have given := given_after (Nat.le_refl (layout.fullSlots buffer.length))
  -- Without a slot the decoder stops at once. With one it fails first and stops a step later.
  cases found : layout.slots[layout.fullSlots buffer.length]? with
  | none =>
      have stopped := given.next_of_done (List.getElem?_eq_none_iff.mp found)
      rw [Nat.add_assoc, Decoder.after_of_stopped stopped]
      exact ⟨stopped, given.offset_eq, given.index_eq⟩
  | some slot =>
      have failed : (layout.decoder buffer).after (layout.fullSlots buffer.length + 1) =
          { (layout.decoder buffer).after (layout.fullSlots buffer.length) with failed := true } :=
        congrArg Prod.snd (next_of_fullSlots found)
      have stopped : ((layout.decoder buffer).after (layout.fullSlots buffer.length + 1)).next =
          (none, (layout.decoder buffer).after (layout.fullSlots buffer.length + 1)) :=
        Decoder.next_of_failed (by rw [failed])
      rw [Nat.add_right_comm, Decoder.after_of_stopped stopped]
      refine ⟨stopped, ?_, ?_⟩
      · rw [failed]
        exact given.offset_eq
      · rw [failed]
        exact given.index_eq

theorem position_after (layout : Layout) (buffer : Bytes) (steps : Nat) :
    ((layout.decoder buffer).after steps).offset =
        layout.offset (min steps (layout.fullSlots buffer.length)) ∧
      ((layout.decoder buffer).after steps).index =
        min steps (layout.fullSlots buffer.length) := by
  by_cases within : steps ≤ layout.fullSlots buffer.length
  · have given := given_after within
    rw [Nat.min_eq_left within]
    exact ⟨given.offset_eq, given.index_eq⟩
  · have late := Nat.lt_of_not_le within
    rw [Nat.min_eq_right (Nat.le_of_lt late)]
    exact (after_of_fullSlots_lt late).2

theorem item_of_fullSlots_lt (late : layout.fullSlots buffer.length < steps) :
    (layout.decoder buffer).item steps = none := by
  rw [Decoder.item, (after_of_fullSlots_lt late).1]

/-- A whole record is read from its own bytes, whatever stands after them. -/
theorem item_of_size_le (exact : layout.Exact) (long : layout.size ≤ buffer.length) :
    (layout.decoder buffer).item steps = layout.slots[steps]?.map fun slot =>
      .ok (slot.read layout.order
        (((buffer.take layout.size).drop (layout.offset steps)).take slot.width)) := by
  have complete := fullSlots_of_size_le exact long
  cases found : layout.slots[steps]? with
  | none =>
      have late := List.getElem?_eq_none_iff.mp found
      rw [← complete] at late
      rcases Nat.eq_or_lt_of_le late with rfl | later
      · exact item_of_fullSlots_eq_length complete
      · exact item_of_fullSlots_lt later
  | some slot =>
      obtain ⟨inside, _⟩ := List.getElem?_eq_some_iff.mp found
      have bounded := end_le_size exact found
      have span : ((buffer.take layout.size).drop (layout.offset steps)).take slot.width =
          (buffer.drop (layout.offset steps)).take slot.width := by
        rw [List.drop_take, List.take_take, Nat.min_eq_left (by omega)]
      rw [item_of_lt_fullSlots (by rwa [complete]) found, Option.map_some, span, Slot.read_take]

theorem steps_of_take_eq (exact : layout.Exact) {other : Bytes}
    (same : other.take layout.size = buffer.take layout.size) (steps : Nat) :
    (layout.decoder other).item steps = (layout.decoder buffer).item steps ∧
      ((layout.decoder other).after steps).offset =
        ((layout.decoder buffer).after steps).offset ∧
      ((layout.decoder other).after steps).index =
        ((layout.decoder buffer).after steps).index := by
  have lengths := congrArg List.length same
  rw [List.length_take, List.length_take] at lengths
  by_cases long : layout.size ≤ buffer.length
  · have otherLong : layout.size ≤ other.length := by omega
    refine ⟨?_, ?_⟩
    · rw [item_of_size_le exact otherLong, item_of_size_le exact long, same]
    · simp only [position_after, fullSlots_of_size_le exact otherLong,
        fullSlots_of_size_le exact long, and_self]
  · have otherShort : ¬ layout.size ≤ other.length := by omega
    obtain rfl : other = buffer := by
      rwa [List.take_of_length_le (by omega), List.take_of_length_le (by omega)] at same
    exact ⟨rfl, rfl, rfl⟩

theorem item_ne_codec (layout : Layout) (buffer : Bytes) (steps index : Nat) (cause : FieldError) :
    (layout.decoder buffer).item steps ≠ some (.error (.codec index cause)) := by
  rcases Nat.lt_trichotomy steps (layout.fullSlots buffer.length) with before | rfl | late
  · have inside := Nat.lt_of_lt_of_le before (layout.fullSlots_le buffer.length)
    rw [item_of_lt_fullSlots before (List.getElem?_eq_getElem inside)]
    nofun
  · rcases Nat.eq_or_lt_of_le (layout.fullSlots_le buffer.length) with complete | inside
    · rw [item_of_fullSlots_eq_length complete]
      nofun
    · rw [Decoder.item, next_of_fullSlots (List.getElem?_eq_getElem inside)]
      nofun
  · rw [item_of_fullSlots_lt late]
    nofun

/-- The decoder of any buffer gives the values of the slots that lie within it, then one error if a
slot is left, then nothing. It stands where the last value ended, and what follows a record has no
part in any step. -/
theorem decoder_steps {source : String} (compiled : compile source = .ok layout)
    (buffer : Bytes) :
    ∃ count, count = layout.fullSlots buffer.length ∧ count ≤ layout.valueCount ∧
      (∀ index slot, index < count → layout.slots[index]? = some slot →
        layout.offset index + slot.width ≤ buffer.length) ∧
      (∀ slot, layout.slots[count]? = some slot →
        buffer.length < layout.offset count + slot.width) ∧
      (∀ steps, steps < count →
        ∃ slot value, layout.slots[steps]? = some slot ∧
          slot.decode layout.order ((buffer.drop (layout.offset steps)).take slot.width) =
            .ok value ∧
          (layout.decoder buffer).item steps = some (.ok value)) ∧
      (count < layout.valueCount →
        ∃ slot, layout.slots[count]? = some slot ∧ layout.offset count ≤ buffer.length ∧
          (layout.decoder buffer).item count = some (.error
            (.truncated count slot.width (buffer.length - layout.offset count)))) ∧
      (count = layout.valueCount → (layout.decoder buffer).item count = none) ∧
      (∀ steps, count < steps → (layout.decoder buffer).item steps = none) ∧
      (∀ steps,
        ((layout.decoder buffer).after steps).offset = layout.offset (min steps count) ∧
          ((layout.decoder buffer).after steps).index = min steps count) ∧
      (∀ other : Bytes, other.take layout.size = buffer.take layout.size → ∀ steps,
        (layout.decoder other).item steps = (layout.decoder buffer).item steps ∧
          ((layout.decoder other).after steps).offset =
            ((layout.decoder buffer).after steps).offset ∧
          ((layout.decoder other).after steps).index =
            ((layout.decoder buffer).after steps).index) ∧
      ∀ steps index cause,
        (layout.decoder buffer).item steps ≠ some (.error (.codec index cause)) := by
  have exact := exact_of_compile compiled
  rw [exact.valueCount]
  refine ⟨_, rfl, layout.fullSlots_le buffer.length, fun _ _ => end_le_of_lt_fullSlots,
    fun _ => lt_end_of_fullSlots, ?_, ?_, item_of_fullSlots_eq_length,
    fun _ => item_of_fullSlots_lt, layout.position_after buffer,
    fun _ => steps_of_take_eq exact, layout.item_ne_codec buffer⟩
  · intro steps before
    have inside := Nat.lt_of_lt_of_le before (layout.fullSlots_le buffer.length)
    have found := List.getElem?_eq_getElem inside
    have sound := sound_of_mem_slots (List.mem_of_getElem? found)
    have enough := end_le_of_lt_fullSlots before found
    refine ⟨_, _, found, ?_, item_of_lt_fullSlots before found⟩
    rw [Slot.decode_of_le layout.order sound, Slot.read_take]
    rw [List.length_take, List.length_drop]
    omega
  · intro inside
    have found := List.getElem?_eq_getElem inside
    exact ⟨_, found, offset_le_of_le_fullSlots (Nat.le_refl _),
      congrArg Prod.fst (next_of_fullSlots found)⟩

/-- A buffer that ends inside the number after the byte string. -/
theorem decoder_steps_specimen :
    compile ">2se?" = .ok specimen ∧
      (specimen.decoder [97, 98, 0x7E]).item 1 = some (.error (.truncated 1 2 1)) ∧
      (∀ steps, 1 < steps → (specimen.decoder [97, 98, 0x7E]).item steps = none) ∧
      ((specimen.decoder [97, 98, 0x7E]).after 7).offset = 2 := by
  obtain ⟨_, counted, _, _, _, _, truncated, _, ended, position, _⟩ :=
    decoder_steps compile_specimen [97, 98, 0x7E]
  obtain rfl : _ = 1 := counted
  obtain ⟨slot, found, _, item⟩ := truncated (by decide)
  cases found
  exact ⟨compile_specimen, item, ended, (position 7).1⟩

end Layout

end BinaryRecord
