import BinaryRecord.Proofs.Layout.Compilation
import BinaryRecord.Proofs.Packing.Calls
import BinaryRecord.Proofs.Slot.Mirror
import BinaryRecord.Proofs.Unpacking.Slots

/-!
# One record in two orders

The same groups in the two byte orders have the same records, mirrored: the bytes of every scalar
are reversed in place and byte strings stand as they are. The marker of a format chooses one of the
two layouts and nothing else. Main statement: `Layout.compile_orders`.
-/

set_option autoImplicit false

namespace BinaryRecord.Layout

/-- The bytes of a record in the other order. -/
def mirror (layout : Layout) (bytes : Bytes) : Bytes :=
  Slot.mirrorAll layout.slots bytes

/-- Two layouts of the same groups, one in each order. -/
structure Orders (little big : Layout) : Prop where
  little_exact : little.Exact
  big_exact : big.Exact
  little_order : little.order = .little
  big_order : big.order = .big
  groups : big.groups = little.groups

/-- Layouts that work alike. -/
structure Alike (layout other : Layout) : Prop where
  format : layout.format = other.format
  size : layout.size = other.size
  valueCount : layout.valueCount = other.valueCount
  pack : ∀ values, layout.pack values = other.pack values
  packCall : ∀ values, layout.packCall values = other.packCall values
  packInto : ∀ offset values, layout.packInto offset values = other.packInto offset values
  packIntoCall : ∀ offset values,
    layout.packIntoCall offset values = other.packIntoCall offset values
  unpack : ∀ buffer, layout.unpack buffer = other.unpack buffer
  unpackFrom : ∀ offset buffer, layout.unpackFrom offset buffer = other.unpackFrom offset buffer

/-- What a layout was written as has no part in what it does. -/
theorem alike_of_eq {layout other : Layout} (format : layout.format = other.format)
    (size : layout.size = other.size) (valueCount : layout.valueCount = other.valueCount) :
    layout.Alike other := by
  obtain ⟨_, _, _, _⟩ := layout
  obtain ⟨_, _, _, _⟩ := other
  cases format
  cases size
  cases valueCount
  exact ⟨rfl, rfl, rfl, fun _ => rfl, fun _ => rfl, fun _ _ => rfl, fun _ _ => rfl, fun _ => rfl,
    fun _ _ => rfl⟩

namespace Orders

variable {little big : Layout}

theorem slots (orders : Orders little big) : big.slots = little.slots :=
  congrArg (List.flatMap Group.slots) orders.groups

theorem size (orders : Orders little big) : big.size = little.size := by
  rw [orders.big_exact.size, orders.little_exact.size, orders.slots]

theorem valueCount (orders : Orders little big) : big.valueCount = little.valueCount := by
  rw [orders.big_exact.valueCount, orders.little_exact.valueCount, orders.slots]

theorem pack_big (orders : Orders little big) (values : List Value) :
    big.pack values = (little.pack values).map little.mirror := by
  have sound : ∀ slot ∈ little.slots, slot.Sound := fun _ member => sound_of_mem_slots member
  rw [pack_eq orders.big_exact, pack_eq orders.little_exact, orders.slots, orders.valueCount,
    orders.big_order, orders.little_order, Slot.encodeAll_big 0 sound]
  split <;> rfl

theorem packCall_big (orders : Orders little big) (values : List Value) :
    big.packCall values = (little.packCall values).map little.mirror := by
  rw [packCall, packCall, orders.size, orders.valueCount, orders.pack_big]
  split
  · rfl
  · cases little.pack values <;> rfl

theorem widthSum_le (orders : Orders little big) {buffer : Bytes}
    (full : buffer.length = little.size) : Slot.widthSum little.slots ≤ buffer.length :=
  Nat.le_of_eq (full.trans orders.little_exact.size).symm

theorem unpack_big (orders : Orders little big) {buffer : Bytes}
    (full : buffer.length = little.size) :
    ∃ values, big.unpack buffer = .ok values ∧
      little.unpack (little.mirror buffer) = .ok values := by
  have mirroredFull : (little.mirror buffer).length = little.size :=
    (Slot.length_mirrorAll little.slots buffer).trans full
  refine ⟨_, unpack_of_length orders.big_exact (full.trans orders.size.symm), ?_⟩
  rw [unpack_of_length orders.little_exact mirroredFull, orders.little_order, orders.big_order,
    orders.slots, Slot.readAll_big (orders.widthSum_le full)]
  rfl

theorem unpack_of_misfit (orders : Orders little big) {buffer : Bytes}
    (misfit : buffer.length ≠ little.size) :
    little.unpack buffer = .error (.sizeMismatch little.size buffer.length) ∧
      big.unpack buffer = .error (.sizeMismatch little.size buffer.length) := by
  have bigMisfit : buffer.length ≠ big.size := by rwa [orders.size]
  rw [unpack_of_length_ne misfit, unpack_of_length_ne bigMisfit, orders.size]
  exact ⟨rfl, rfl⟩

theorem span_mirror (orders : Orders little big) {buffer : Bytes} {index : Nat} {slot : Slot}
    (full : buffer.length = little.size) (found : little.slots[index]? = some slot) :
    ((little.mirror buffer).drop (little.offset index)).take slot.width =
      slot.mirror ((buffer.drop (little.offset index)).take slot.width) :=
  Slot.span_mirrorAll (orders.widthSum_le full) found

end Orders

/-- A text without a marker has a layout in each order, of one size and the same groups. The records
of one are those of the other with the bytes of every scalar reversed in place, and what one layout
refuses the other refuses for the same error. Both panic, whatever the values are, where a record is
too long for a buffer. Every marker, and none, stands for one of the two. -/
theorem compile_orders {body : String} {layout : Layout} (free : Format.MarkerFree body.toList)
    (compiled : compile body = .ok layout) :
    ∃ little big, compile ("<" ++ body) = .ok little ∧ compile (">" ++ body) = .ok big ∧
      big.size = little.size ∧ big.valueCount = little.valueCount ∧ big.groups = little.groups ∧
      (∀ values,
        (values.length = little.valueCount ∧ Size.bufferLimit ≤ little.size ∧
          little.packCall values = .error (.panicked .capacityOverflow) ∧
          big.packCall values = .error (.panicked .capacityOverflow)) ∨
        (∃ error, little.packCall values = .error (.answered error) ∧
          big.packCall values = .error (.answered error)) ∨
        ∃ packed, little.packCall values = .ok packed ∧
          big.packCall values = .ok (little.mirror packed)) ∧
      (∀ buffer, buffer.length ≠ little.size →
        ∃ error, little.unpack buffer = .error error ∧ big.unpack buffer = .error error) ∧
      (∀ buffer, buffer.length = little.size →
        (∃ values, big.unpack buffer = .ok values ∧
          little.unpack (little.mirror buffer) = .ok values) ∧
        (little.mirror buffer).length = little.size ∧
        little.mirror (little.mirror buffer) = buffer ∧
        ∀ (index : Nat) (slot : Slot), little.slots[index]? = some slot →
          ((little.mirror buffer).drop (little.offset index)).take slot.width =
            if slot.field = .bytes then (buffer.drop (little.offset index)).take slot.width
            else ((buffer.drop (little.offset index)).take slot.width).reverse) ∧
      (∀ marker : String, ByteOrder.big.Marked marker.toList →
        ∃ marked, compile (marker ++ body) = .ok marked ∧ marked.Alike big) ∧
      ∀ marker : String, ByteOrder.little.Marked marker.toList →
        ∃ marked, compile (marker ++ body) = .ok marked ∧ marked.Alike little := by
  have littleMarked : ByteOrder.little.Marked ("<" : String).toList := .less
  have bigMarked : ByteOrder.big.Marked (">" : String).toList := .greater
  have littleCompiled := compile_marked littleMarked free compiled
  have bigCompiled := compile_marked bigMarked free compiled
  have orders : Orders _ _ :=
    ⟨exact_of_compile littleCompiled, exact_of_compile bigCompiled, rfl, rfl, rfl⟩
  refine ⟨_, _, littleCompiled, bigCompiled, orders.size, orders.valueCount, orders.groups, ?_, ?_,
    ?_, fun marker marked => ⟨_, compile_marked marked free compiled, alike_of_eq rfl rfl rfl⟩,
    fun marker marked => ⟨_, compile_marked marked free compiled, alike_of_eq rfl rfl rfl⟩⟩
  · intro values
    rw [orders.packCall_big]
    rcases packCall_cases _ values with
      ⟨packed, _, _, called⟩ | ⟨error, _, _, called⟩ | ⟨full, beyond, called⟩
    · rw [called]
      exact .inr (.inr ⟨packed, rfl, rfl⟩)
    · rw [called]
      exact .inr (.inl ⟨error, rfl, rfl⟩)
    · rw [called]
      exact .inl ⟨full, beyond, rfl, rfl⟩
  · intro buffer misfit
    exact ⟨_, orders.unpack_of_misfit misfit⟩
  · intro buffer full
    exact ⟨orders.unpack_big full, (Slot.length_mirrorAll _ _).trans full,
      Slot.mirrorAll_mirrorAll (orders.widthSum_le full), fun _ _ => orders.span_mirror full⟩

/-- A byte string, which stands as it is, a number, whose two bytes change places, and a boolean. A
number is not refused for a byte string that no buffer holds. -/
theorem compile_orders_specimen :
    Format.MarkerFree ("2se?" : String).toList ∧
      (∃ little packed, compile ("<" ++ "2se?") = .ok little ∧
        compile (">" ++ "2se?") = .ok specimen ∧
        little.packCall [.bytes [97, 98], .float16 0x7E01, .bool true] = .ok packed ∧
        packed = [97, 98, 1, 0x7E, 1] ∧
        specimen.packCall [.bytes [97, 98], .float16 0x7E01, .bool true] =
          .ok (little.mirror packed) ∧
        little.mirror packed = [97, 98, 0x7E, 1, 1]) ∧
      ∃ little big, compile ("<" ++ "9223372036854775808s") = .ok little ∧
        compile (">" ++ "9223372036854775808s") = .ok big ∧
        little.packCall [.int8 0] = .error (.panicked .capacityOverflow) ∧
        big.packCall [.int8 0] = .error (.panicked .capacityOverflow) := by
  have free : Format.MarkerFree ("2se?" : String).toList := by decide
  have compiled : compile "2se?" = .ok
      ⟨"2se?", ⟨.little, [⟨2, .bytes, by decide⟩, .single .half, .single .bool]⟩, 5, 3⟩ := rfl
  have littleMade : compile ("<" ++ "2se?") = .ok
      ⟨"<2se?", ⟨.little, [⟨2, .bytes, by decide⟩, .single .half, .single .bool]⟩, 5, 3⟩ := rfl
  have bigMade : compile (">" ++ "2se?") = .ok specimen := rfl
  obtain ⟨little, big, littleCompiled, bigCompiled, _, _, _, packs, _⟩ :=
    compile_orders free compiled
  obtain rfl := Except.ok.inj (littleMade.symm.trans littleCompiled)
  obtain rfl := Except.ok.inj (bigMade.symm.trans bigCompiled)
  refine ⟨free, ?_, ?_⟩
  · rcases packs [.bytes [97, 98], .float16 0x7E01, .bool true] with
      ⟨_, _, panicked, _⟩ | ⟨error, rejected, _⟩ | ⟨packed, accepted, mirrored⟩
    · cases panicked
    · cases rejected
    · have written : packed = [97, 98, 1, 0x7E, 1] := (Except.ok.inj accepted).symm
      subst written
      exact ⟨_, _, littleMade, bigMade, accepted, rfl, mirrored, rfl⟩
  · have digits : Format.MarkerFree ("9223372036854775808s" : String).toList := by decide
    have littleMade : compile ("<" ++ "9223372036854775808s") = .ok
        { colossus with source := "<9223372036854775808s" } := rfl
    obtain ⟨little, big, littleCompiled, bigCompiled, _, _, _, packs, _⟩ :=
      compile_orders digits compile_colossus
    obtain rfl := Except.ok.inj (littleMade.symm.trans littleCompiled)
    have panicked : packCall { colossus with source := "<9223372036854775808s" } [.int8 0] =
        .error (.panicked .capacityOverflow) := packCall_of_le (Nat.le_refl _) rfl
    rcases packs [.int8 0] with
      ⟨_, _, _, bigPanicked⟩ | ⟨error, rejected, _⟩ | ⟨packed, accepted, _⟩
    · exact ⟨_, _, littleMade, bigCompiled, panicked, bigPanicked⟩
    · cases panicked.symm.trans rejected
    · cases panicked.symm.trans accepted

end BinaryRecord.Layout
