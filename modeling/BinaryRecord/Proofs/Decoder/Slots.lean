import BinaryRecord.Decoder
import BinaryRecord.Proofs.Slot.Sequence

/-!
# Decoding by slots

The walk of a decoder over groups and units passes one slot at each step, and so gives what decoding
of the slots that are left gives.
-/

set_option autoImplicit false

namespace BinaryRecord.Decoder

def slots (decoder : Decoder) : List Slot :=
  ((decoder.groups.drop decoder.group).flatMap Group.slots).drop decoder.unit

/-- The unit is a value of the current group, and zero after the last group. -/
structure Valid (decoder : Decoder) : Prop where
  inside : ∀ group, decoder.groups[decoder.group]? = some group →
    decoder.unit < group.valueCount
  atEnd : decoder.groups[decoder.group]? = none → decoder.unit = 0

structure Passes (slot : Slot) (before after : Decoder) : Prop where
  groups : after.groups = before.groups
  order : after.order = before.order
  buffer : after.buffer = before.buffer
  offset : after.offset = before.offset + slot.width
  index : after.index = before.index + 1
  failed : after.failed = before.failed
  slots : before.slots = slot :: after.slots
  valid : after.Valid

theorem Passes.rest {slot : Slot} {before after : Decoder} (passes : Passes slot before after) :
    after.rest = before.rest.drop slot.width := by
  simp [Decoder.rest, passes.buffer, passes.offset, List.drop_drop]

theorem read_eq (decoder : Decoder) (group : Group) :
    decoder.read group = (group.slot.decode decoder.order decoder.rest).map
      fun value => (value, group.slot.width) := by
  unfold read Slot.decode Group.slot
  by_cases string : group.field.isBytes <;> simp [string]

private theorem slots_eq_append {decoder : Decoder} {group : Group}
    (current : decoder.groups[decoder.group]? = some group) :
    decoder.slots = (List.replicate group.valueCount group.slot ++
      (decoder.groups.drop (decoder.group + 1)).flatMap Group.slots).drop decoder.unit := by
  obtain ⟨inside, rfl⟩ := List.getElem?_eq_some_iff.mp current
  rw [slots, List.drop_eq_getElem_cons inside, List.flatMap_cons, Group.slots_eq_replicate]

theorem passes_advance {decoder : Decoder} {group : Group} (valid : decoder.Valid)
    (current : decoder.groups[decoder.group]? = some group) :
    Passes group.slot decoder (decoder.advance group group.slot.width) := by
  have inside := valid.inside group current
  have remaining := slots_eq_append current
  have shown : decoder.slots = group.slot ::
      (List.replicate group.valueCount group.slot ++
        (decoder.groups.drop (decoder.group + 1)).flatMap Group.slots).drop (decoder.unit + 1) := by
    rw [remaining, List.drop_eq_getElem_cons (by simp; omega)]
    simp [List.getElem_append_left, inside]
  unfold advance
  by_cases more : decoder.unit + 1 < group.valueCount
  · simp only [more, if_true]
    refine ⟨rfl, rfl, rfl, rfl, rfl, rfl, ?_, ?_⟩
    · refine shown.trans (congrArg (group.slot :: ·) ?_)
      exact Eq.symm (slots_eq_append current)
    · constructor
      · intro other found
        rw [Option.some.inj (current.symm.trans found)] at more
        exact more
      · intro missing
        simp [current] at missing
  · have last : decoder.unit + 1 = group.valueCount := by omega
    simp only [more, if_false]
    refine ⟨rfl, rfl, rfl, rfl, rfl, rfl, ?_, ?_⟩
    · rw [shown, last, List.drop_append_of_le_length (by simp)]
      simp [slots]
    · constructor
      · intro other _
        exact other.valueCount_pos
      · intro _
        rfl

theorem next_of_slots_nil {decoder : Decoder} (valid : decoder.Valid)
    (done : decoder.slots = []) : decoder.next = (none, decoder) := by
  unfold next
  cases current : decoder.groups[decoder.group]? with
  | none => simp
  | some group =>
      have shown := (passes_advance valid current).slots
      simp [done] at shown

theorem next_of_slots_cons {decoder : Decoder} {slot : Slot} {later : List Slot}
    (valid : decoder.Valid) (active : decoder.failed = false)
    (remaining : decoder.slots = slot :: later) :
    ∃ after, Passes slot decoder after ∧
      decoder.next = match slot.decode decoder.order decoder.rest with
        | .ok value => (some (.ok value), after)
        | .error error =>
            (some (.error (.ofField decoder.index error)), { decoder with failed := true }) := by
  cases current : decoder.groups[decoder.group]? with
  | none =>
      have passed : decoder.groups.drop decoder.group = [] :=
        List.drop_eq_nil_iff.mpr (List.getElem?_eq_none_iff.mp current)
      simp [slots, passed] at remaining
  | some group =>
      have passes := passes_advance valid current
      obtain ⟨rfl, _⟩ : group.slot = slot ∧ _ :=
        List.cons.inj (passes.slots.symm.trans remaining)
      refine ⟨_, passes, ?_⟩
      unfold next
      simp only [active, Bool.false_eq_true, if_false, current]
      rw [read_eq]
      cases group.slot.decode decoder.order decoder.rest <;> rfl

theorem items_of_next_none {decoder after : Decoder} (step : decoder.next = (none, after)) :
    decoder.items = [] := by
  rw [items, drain]
  split
  · rfl
  · rename_i item other taken
    simp [step] at taken

theorem items_of_next_some {decoder after : Decoder} {item : Except UnpackError Value}
    (step : decoder.next = (some item, after)) : decoder.items = item :: after.items := by
  rw [items, drain]
  split
  · rename_i other taken
    simp [step] at taken
  · rename_i other last taken
    rw [step] at taken
    cases taken
    rfl

theorem items_of_failed {decoder : Decoder} (failed : decoder.failed = true) :
    decoder.items = [] := by
  have stopped : decoder.next = (none, decoder) := by
    unfold next
    rw [if_pos failed]
  exact items_of_next_none stopped

theorem items_eq_decodeAll {decoder : Decoder} (valid : decoder.Valid)
    (active : decoder.failed = false) :
    decoder.items =
      Slot.decodeAll decoder.order decoder.index decoder.slots decoder.rest := by
  induction remaining : decoder.slots generalizing decoder with
  | nil => exact items_of_next_none (next_of_slots_nil valid remaining)
  | cons slot later laterIH =>
      obtain ⟨after, passes, step⟩ := next_of_slots_cons valid active remaining
      rw [Slot.decodeAll]
      cases decoded : slot.decode decoder.order decoder.rest with
      | error error =>
          rw [decoded] at step
          rw [items_of_next_some step, items_of_failed rfl]
      | ok value =>
          rw [decoded] at step
          have tail : after.slots = later :=
            (List.cons.inj (passes.slots.symm.trans remaining)).2
          have recursive := laterIH passes.valid (passes.failed.trans active) tail
          rw [items_of_next_some step, recursive, passes.order, passes.index, passes.rest]

end Decoder

namespace Layout

theorem valid_decoder (layout : Layout) (buffer : Bytes) : (layout.decoder buffer).Valid := by
  constructor
  · intro group _
    exact group.valueCount_pos
  · intro _
    rfl

theorem items_decoder (layout : Layout) (buffer : Bytes) :
    (layout.decoder buffer).items = Slot.decodeAll layout.order 0 layout.slots buffer :=
  Decoder.items_eq_decodeAll (layout.valid_decoder buffer) rfl

end Layout

end BinaryRecord
