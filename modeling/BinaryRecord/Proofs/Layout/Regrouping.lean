import BinaryRecord.Proofs.Decoder.Counters
import BinaryRecord.Proofs.Packing.Placement
import BinaryRecord.Proofs.Slot.Merged
import BinaryRecord.Proofs.Unpacking.Slots

/-!
# Records however they are grouped

Two layouts with the same slots do the same, whatever groups the slots come from: a decoder that
walks over the groups of one takes each step as a decoder of the other does. If the slots differ in
names only, all that differs is the name of a field in an error. Main statement:
`Layout.grouping_invisible`.
-/

set_option autoImplicit false

namespace BinaryRecord

namespace Decoder

/-- Two decoders at one place of a buffer, with the same slots before them. -/
structure Regrouped (decoder other : Decoder) : Prop where
  order : decoder.order = other.order
  buffer : decoder.buffer = other.buffer
  offset : decoder.offset = other.offset
  index : decoder.index = other.index
  failed : decoder.failed = other.failed
  slots : decoder.slots.map Slot.merged = other.slots.map Slot.merged
  valid : decoder.Valid
  otherValid : other.Valid

namespace Regrouped

variable {decoder other after otherAfter : Decoder} {slot otherSlot : Slot}

theorem rest (regrouped : Regrouped decoder other) : decoder.rest = other.rest := by
  simp only [Decoder.rest, regrouped.buffer, regrouped.offset]

/-- Decoders that pass slots of one width stay together. -/
theorem passes (regrouped : Regrouped decoder other) (same : slot.merged = otherSlot.merged)
    (passes : Passes slot decoder after) (otherPasses : Passes otherSlot other otherAfter) :
    Regrouped after otherAfter where
  order := passes.order.trans (regrouped.order.trans otherPasses.order.symm)
  buffer := passes.buffer.trans (regrouped.buffer.trans otherPasses.buffer.symm)
  offset := by
    have width : slot.width = otherSlot.width := by simpa using congrArg Slot.width same
    rw [passes.offset, otherPasses.offset, regrouped.offset, width]
  index := by rw [passes.index, otherPasses.index, regrouped.index]
  failed := passes.failed.trans (regrouped.failed.trans otherPasses.failed.symm)
  slots := by
    have slots := regrouped.slots
    rw [passes.slots, otherPasses.slots] at slots
    exact (List.cons.inj slots).2
  valid := passes.valid
  otherValid := otherPasses.valid

theorem fail (regrouped : Regrouped decoder other) :
    Regrouped { decoder with failed := true } { other with failed := true } where
  order := regrouped.order
  buffer := regrouped.buffer
  offset := regrouped.offset
  index := regrouped.index
  failed := rfl
  slots := regrouped.slots
  valid := regrouped.valid.fail
  otherValid := regrouped.otherValid.fail

theorem decode_eq (regrouped : Regrouped decoder other) (same : slot.merged = otherSlot.merged) :
    slot.decode decoder.order decoder.rest = otherSlot.decode other.order other.rest := by
  calc slot.decode decoder.order decoder.rest
      = slot.merged.decode decoder.order decoder.rest := (Slot.decode_merged _ _ _).symm
    _ = otherSlot.merged.decode other.order other.rest := by
        rw [same, regrouped.order, regrouped.rest]
    _ = otherSlot.decode other.order other.rest := Slot.decode_merged _ _ _

/-- Slots are passed one for one, so both decoders give the same and stay together, whichever of
them enters a new group. -/
theorem next (regrouped : Regrouped decoder other) :
    decoder.next.1 = other.next.1 ∧ Regrouped decoder.next.2 other.next.2 := by
  cases active : decoder.failed with
  | true =>
      have otherFailed := regrouped.failed.symm.trans active
      rw [next_of_failed active, next_of_failed otherFailed]
      exact ⟨rfl, regrouped⟩
  | false =>
      have otherActive := regrouped.failed.symm.trans active
      have slots := regrouped.slots
      cases remaining : decoder.slots with
      | nil =>
          have done : other.slots = [] := by simpa [remaining] using slots.symm
          rw [next_of_slots_nil regrouped.valid remaining,
            next_of_slots_nil regrouped.otherValid done]
          exact ⟨rfl, regrouped⟩
      | cons slot later =>
          rw [remaining, List.map_cons] at slots
          obtain ⟨otherSlot, otherLater, otherRemaining, same, _⟩ :=
            List.map_eq_cons_iff.mp slots.symm
          obtain ⟨after, passes, step⟩ := next_of_slots_cons regrouped.valid active remaining
          obtain ⟨otherAfter, otherPasses, otherStep⟩ :=
            next_of_slots_cons regrouped.otherValid otherActive otherRemaining
          rw [← regrouped.decode_eq same.symm] at otherStep
          cases decoded : slot.decode decoder.order decoder.rest with
          | ok value =>
              simp only [decoded] at step otherStep
              rw [step, otherStep]
              exact ⟨rfl, regrouped.passes same.symm passes otherPasses⟩
          | error cause =>
              have numbered := congrArg (fun index => UnpackError.ofField index cause)
                regrouped.index
              simp only [decoded] at step otherStep
              rw [step, otherStep]
              exact ⟨congrArg (some <| Except.error ·) numbered, regrouped.fail⟩

theorem after_steps (regrouped : Regrouped decoder other) (steps : Nat) :
    Regrouped (decoder.after steps) (other.after steps) := by
  induction steps with
  | zero => exact regrouped
  | succ steps stepsIH => exact stepsIH.next.2

theorem itemBounds (regrouped : Regrouped decoder other) :
    decoder.itemBounds = other.itemBounds := by
  have lengths := congrArg List.length regrouped.slots
  simp only [List.length_map] at lengths
  simp only [Decoder.itemBounds, itemBound_eq, regrouped.failed, lengths]

end Regrouped

end Decoder

namespace Layout

/-- Two layouts of one order whose slots differ in names at most. -/
structure Regrouped (layout other : Layout) : Prop where
  exact : layout.Exact
  otherExact : other.Exact
  order : layout.order = other.order
  slots : layout.slots.map Slot.merged = other.slots.map Slot.merged

variable {layout other : Layout}

section PackInto

variable {ε : Type} {view : PackError → ε} {offset : Nat} {values : List Value}

theorem adaptExcept_packInto (small : offset + layout.size < Size.limit) (target : Bytes) :
    (layout.packInto offset values).adaptExcept view target =
      match (layout.pack values).mapError view with
      | .ok packed => .ok packed.length (Bytes.overwrite offset packed target)
      | .error error => .error error target := by
  cases packs : layout.pack values with
  | ok packed =>
      simp only [EStateM.adaptExcept, packInto_of_pack_ok small packs]
      rfl
  | error error =>
      simp only [EStateM.adaptExcept, packInto_of_pack_error small packs]
      rfl

/-- Packing into a target depends on the size of a record and on what packing gives, seen as far as
the errors are. -/
theorem packInto_congr (size : layout.size = other.size)
    (packs : (layout.pack values).mapError view = (other.pack values).mapError view) :
    (layout.packInto offset values).adaptExcept view =
      (other.packInto offset values).adaptExcept view := by
  funext target
  rcases Nat.lt_or_ge (offset + layout.size) Size.limit with small | large
  · have otherSmall : offset + other.size < Size.limit := size ▸ small
    rw [adaptExcept_packInto small, adaptExcept_packInto otherSmall, packs]
  · have otherLarge : Size.limit ≤ offset + other.size := size ▸ large
    simp only [EStateM.adaptExcept, packInto_of_limit_le large, packInto_of_limit_le otherLarge,
      size]

end PackInto

namespace Regrouped

theorem length_slots (regrouped : Regrouped layout other) :
    layout.slots.length = other.slots.length := by
  simpa using congrArg List.length regrouped.slots

theorem size (regrouped : Regrouped layout other) : layout.size = other.size := by
  calc layout.size
      = Slot.widthSum (layout.slots.map Slot.merged) :=
        regrouped.exact.size.trans (Slot.widthSum_merged layout.slots).symm
    _ = Slot.widthSum (other.slots.map Slot.merged) := by rw [regrouped.slots]
    _ = other.size := (Slot.widthSum_merged other.slots).trans regrouped.otherExact.size.symm

theorem valueCount (regrouped : Regrouped layout other) : layout.valueCount = other.valueCount :=
  regrouped.exact.valueCount.trans (regrouped.length_slots.trans regrouped.otherExact.valueCount.symm)

theorem encodeAll (regrouped : Regrouped layout other) (values : List Value) :
    (Slot.encodeAll layout.order 0 layout.slots values).mapError PackError.unnamed =
      (Slot.encodeAll other.order 0 other.slots values).mapError PackError.unnamed := by
  calc (Slot.encodeAll layout.order 0 layout.slots values).mapError PackError.unnamed
      = (Slot.encodeAll layout.order 0 (layout.slots.map Slot.merged) values).mapError
          PackError.unnamed := (Slot.encodeAll_merged _ _ _ _).symm
    _ = (Slot.encodeAll other.order 0 (other.slots.map Slot.merged) values).mapError
          PackError.unnamed := by rw [regrouped.order, regrouped.slots]
    _ = (Slot.encodeAll other.order 0 other.slots values).mapError PackError.unnamed :=
        Slot.encodeAll_merged _ _ _ _

theorem pack (regrouped : Regrouped layout other) (values : List Value) :
    (layout.pack values).mapError PackError.unnamed =
      (other.pack values).mapError PackError.unnamed := by
  simp only [pack_eq regrouped.exact, pack_eq regrouped.otherExact, regrouped.length_slots,
    regrouped.valueCount]
  by_cases full : values.length = other.slots.length
  · simpa only [full, if_true] using regrouped.encodeAll values
  · simp only [full, if_false]

theorem pack_of_slots (regrouped : Regrouped layout other) (same : layout.slots = other.slots)
    (values : List Value) : layout.pack values = other.pack values := by
  simp only [pack_eq regrouped.exact, pack_eq regrouped.otherExact, regrouped.valueCount,
    regrouped.order, same]

theorem items (regrouped : Regrouped layout other) (buffer : Bytes) :
    (layout.decoder buffer).items = (other.decoder buffer).items := by
  calc (layout.decoder buffer).items
      = Slot.decodeAll layout.order 0 layout.slots buffer := layout.items_decoder buffer
    _ = Slot.decodeAll layout.order 0 (layout.slots.map Slot.merged) buffer :=
        (Slot.decodeAll_merged _ _ _ _).symm
    _ = Slot.decodeAll other.order 0 (other.slots.map Slot.merged) buffer := by
        rw [regrouped.order, regrouped.slots]
    _ = Slot.decodeAll other.order 0 other.slots buffer := Slot.decodeAll_merged _ _ _ _
    _ = (other.decoder buffer).items := (other.items_decoder buffer).symm

theorem unpack (regrouped : Regrouped layout other) (buffer : Bytes) :
    layout.unpack buffer = other.unpack buffer := by
  simp only [Layout.unpack, regrouped.size, regrouped.items]

theorem unpackFrom (regrouped : Regrouped layout other) (offset : Nat) (buffer : Bytes) :
    layout.unpackFrom offset buffer = other.unpackFrom offset buffer := by
  simp only [Layout.unpackFrom, regrouped.unpack]

theorem decoder (regrouped : Regrouped layout other) (buffer : Bytes) :
    Decoder.Regrouped (layout.decoder buffer) (other.decoder buffer) where
  order := regrouped.order
  buffer := rfl
  offset := rfl
  index := rfl
  failed := rfl
  slots := regrouped.slots
  valid := layout.valid_decoder buffer
  otherValid := other.valid_decoder buffer

end Regrouped

/-- Layouts of one order with the same slots have the same sizes, results and errors, and their
decoders agree at every step. Where slots differ in names, an error of packing may name its field
otherwise, and nothing else differs. -/
theorem grouping_invisible {source otherSource : String} (compiled : compile source = .ok layout)
    (otherCompiled : compile otherSource = .ok other) (order : layout.order = other.order)
    (slots : layout.slots.map Slot.merged = other.slots.map Slot.merged) :
    layout.size = other.size ∧ layout.valueCount = other.valueCount ∧
    (∀ values, (layout.pack values).mapError PackError.unnamed =
      (other.pack values).mapError PackError.unnamed) ∧
    (∀ offset values, (layout.packInto offset values).adaptExcept PackError.unnamed =
      (other.packInto offset values).adaptExcept PackError.unnamed) ∧
    (∀ buffer, layout.unpack buffer = other.unpack buffer) ∧
    (∀ offset buffer, layout.unpackFrom offset buffer = other.unpackFrom offset buffer) ∧
    (∀ buffer steps,
      (layout.decoder buffer).item steps = (other.decoder buffer).item steps ∧
      ((layout.decoder buffer).after steps).offset = ((other.decoder buffer).after steps).offset ∧
      ((layout.decoder buffer).after steps).index = ((other.decoder buffer).after steps).index ∧
      ((layout.decoder buffer).after steps).itemBounds =
        ((other.decoder buffer).after steps).itemBounds) ∧
    (layout.slots = other.slots →
      (∀ values, layout.pack values = other.pack values) ∧
      ∀ offset values, layout.packInto offset values = other.packInto offset values) := by
  have regrouped : Regrouped layout other :=
    ⟨exact_of_compile compiled, exact_of_compile otherCompiled, order, slots⟩
  refine ⟨regrouped.size, regrouped.valueCount, regrouped.pack, ?_, regrouped.unpack,
    regrouped.unpackFrom, ?_, ?_⟩
  · intro offset values
    exact packInto_congr regrouped.size (regrouped.pack values)
  · intro buffer steps
    have reached := (regrouped.decoder buffer).after_steps steps
    exact ⟨reached.next.1, reached.offset, reached.index, reached.itemBounds⟩
  · intro same
    have pack := regrouped.pack_of_slots same
    refine ⟨pack, ?_⟩
    intro offset values
    simp only [packInto, regrouped.size, pack]

/-- Three numbers in one group and in two, and with another name for the last. -/
theorem grouping_invisible_specimen :
    ∃ layout other renamed, compile ">3i2s" = .ok layout ∧ compile ">i2i2s" = .ok other ∧
      compile ">2il2s" = .ok renamed ∧
      (∀ values, layout.pack values = other.pack values) ∧
      ((layout.decoder [0, 0, 0, 1, 0, 0]).after 2).itemBounds =
        ((other.decoder [0, 0, 0, 1, 0, 0]).after 2).itemBounds ∧
      layout.slots ≠ renamed.slots ∧
      ∀ buffer, layout.unpack buffer = renamed.unpack buffer := by
  have compiled : compile ">3i2s" = .ok
      ⟨">3i2s", ⟨.big, [⟨3, .int, by decide⟩, ⟨2, .bytes, by decide⟩]⟩, 14, 4⟩ := rfl
  have otherCompiled : compile ">i2i2s" = .ok
      ⟨">i2i2s", ⟨.big, [.single .int, ⟨2, .int, by decide⟩, ⟨2, .bytes, by decide⟩]⟩, 14, 4⟩ := rfl
  have renamedCompiled : compile ">2il2s" = .ok
      ⟨">2il2s", ⟨.big, [⟨2, .int, by decide⟩, .single .long, ⟨2, .bytes, by decide⟩]⟩, 14, 4⟩ := rfl
  obtain ⟨_, _, _, _, _, _, decoders, same⟩ :=
    grouping_invisible compiled otherCompiled rfl rfl
  obtain ⟨_, _, _, _, unpack, _⟩ := grouping_invisible compiled renamedCompiled rfl rfl
  exact ⟨_, _, _, compiled, otherCompiled, renamedCompiled, (same rfl).1, (decoders _ 2).2.2.2,
    by decide, unpack⟩

end Layout

end BinaryRecord
