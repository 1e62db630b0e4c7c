import BinaryRecord.Proofs.Layout.Totals
import BinaryRecord.Proofs.Slot.Sequence

/-!
# Packing by slots

The walk over groups packs the values of a record as its slots do, one after the other. Grouping
leaves no trace in the result: neither in the bytes nor in the index of an error.
-/

set_option autoImplicit false

namespace BinaryRecord

namespace Slot

theorem encodeAll_append (order : ByteOrder) (index : Nat) {slots later : List Slot}
    {values others : List Value} (full : values.length = slots.length) :
    encodeAll order index (slots ++ later) (values ++ others) =
      (encodeAll order index slots values).bind fun head =>
        (encodeAll order (index + slots.length) later others).map (head ++ ·) := by
  induction slots generalizing index values with
  | nil =>
      obtain rfl := List.length_eq_zero_iff.mp full
      cases others : encodeAll order index later others <;>
        simp [encodeAll, Except.bind, Except.map, others]
  | cons slot slots slotsIH =>
      cases values with
      | nil => simp at full
      | cons value values =>
          have following : index + 1 + slots.length = index + (slots.length + 1) := by omega
          have fullTail : values.length = slots.length := by simpa using full
          have tail := slotsIH (index + 1) fullTail
          simp only [List.cons_append, encodeAll, List.length_cons, tail, following]
          cases slot.encode order value with
          | error error => rfl
          | ok head =>
              cases encodeAll order (index + 1) slots values with
              | error error => rfl
              | ok middle =>
                  cases encodeAll order (index + (slots.length + 1)) later others <;>
                    simp [Except.bind, Except.map]

end Slot

namespace Packer

def fill (order : ByteOrder) (slots : List Slot) (values : List Value) (packer : Packer) :
    Except PackError Packer :=
  (Slot.encodeAll order packer.index slots values).map fun bytes =>
    ⟨packer.index + slots.length, packer.output ++ bytes⟩

theorem fill_nil (order : ByteOrder) (values : List Value) (packer : Packer) :
    packer.fill order [] values = .ok packer := by
  simp [fill, Slot.encodeAll, Except.map]

theorem fill_eq_ok_iff {order : ByteOrder} {slots : List Slot} {values : List Value}
    {packer filled : Packer} :
    packer.fill order slots values = .ok filled ↔
      ∃ bytes, Slot.encodeAll order packer.index slots values = .ok bytes ∧
        filled = ⟨packer.index + slots.length, packer.output ++ bytes⟩ := by
  unfold fill
  cases Slot.encodeAll order packer.index slots values with
  | error error => simp [Except.map]
  | ok bytes => simp [Except.map, eq_comm]

theorem index_of_fill {order : ByteOrder} {slots : List Slot} {values : List Value}
    {packer filled : Packer} (accepted : packer.fill order slots values = .ok filled) :
    filled.index = packer.index + slots.length := by
  obtain ⟨_, _, rfl⟩ := fill_eq_ok_iff.mp accepted
  rfl

theorem length_of_fill {order : ByteOrder} {slots : List Slot} {values : List Value}
    {packer filled : Packer} (sound : ∀ slot ∈ slots, slot.Sound)
    (full : values.length = slots.length) (accepted : packer.fill order slots values = .ok filled) :
    filled.output.length = packer.output.length + Slot.widthSum slots := by
  obtain ⟨bytes, encoded, rfl⟩ := fill_eq_ok_iff.mp accepted
  rw [List.length_append, Slot.length_of_encodeAll sound full encoded]

theorem fill_append (order : ByteOrder) {slots later : List Slot} {values others : List Value}
    (packer : Packer) (full : values.length = slots.length) :
    packer.fill order (slots ++ later) (values ++ others) =
      packer.fill order slots values >>= fill order later others := by
  unfold fill
  rw [Slot.encodeAll_append order packer.index full]
  cases Slot.encodeAll order packer.index slots values with
  | error error => rfl
  | ok head =>
      simp only [Except.bind, Except.map, bind]
      cases Slot.encodeAll order (packer.index + slots.length) later others with
      | error error => rfl
      | ok tail => simp [Nat.add_assoc]

theorem put_eq_fill (order : ByteOrder) (slot : Slot) (value : Value) (packer : Packer) :
    packer.put (slot.encode order value) = packer.fill order [slot] [value] := by
  unfold fill Slot.encodeAll
  cases slot.encode order value with
  | error error => rfl
  | ok bytes => simp [put, Slot.encodeAll, Except.map]

/-- Puts values into slots of one kind, one after the other. -/
def putAll (order : ByteOrder) (slot : Slot) (values : List Value) (packer : Packer) :
    Except PackError Packer :=
  values.foldlM (fun packer value => packer.put (slot.encode order value)) packer

theorem putAll_eq_fill (order : ByteOrder) (slot : Slot) (values : List Value)
    (packer : Packer) :
    packer.putAll order slot values =
      packer.fill order (List.replicate values.length slot) values := by
  induction values generalizing packer with
  | nil => exact (fill_nil order [] packer).symm
  | cons value others othersIH =>
      have single : [value].length = [slot].length := rfl
      have appended : packer.fill order (slot :: List.replicate others.length slot)
            (value :: others) =
          packer.fill order [slot] [value] >>=
            fill order (List.replicate others.length slot) others :=
        fill_append order packer single
      rw [putAll, List.foldlM_cons, put_eq_fill, List.length_cons, List.replicate_succ, appended]
      exact congrArg _ (funext othersIH)

theorem next?_eq_some_iff {values window : List Value} {packer : Packer} {count : Nat} :
    packer.next? values count = some window ↔
      packer.index + count ≤ values.length ∧ window = (values.drop packer.index).take count := by
  unfold next?
  split
  next enough => simp [enough, eq_comm]
  next short => simp [short]

theorem length_of_next? {values window : List Value} {packer : Packer} {count : Nat}
    (taken : packer.next? values count = some window) : window.length = count := by
  obtain ⟨enough, rfl⟩ := next?_eq_some_iff.mp taken
  rw [List.length_take, List.length_drop]
  omega

/-- A group is packed value by value, where it has all its values. -/
theorem putGroup_of_next? (order : ByteOrder) {values window : List Value} {packer : Packer}
    {group : Group} (taken : packer.next? values group.valueCount = some window) :
    putGroup order values packer group = packer.putAll order group.slot window := by
  unfold putGroup putAll
  rw [taken]
  by_cases string : group.field.isBytes <;> simp [string, Group.slot, Slot.encode]

theorem putGroup_eq_fill (order : ByteOrder) {values : List Value} {packer : Packer}
    {group : Group} (enough : packer.index + group.valueCount ≤ values.length) :
    putGroup order values packer group =
      packer.fill order group.slots ((values.drop packer.index).take group.valueCount) := by
  have taken := next?_eq_some_iff.mpr ⟨enough, rfl⟩
  rw [putGroup_of_next? order taken, putAll_eq_fill, length_of_next? taken,
    ← Group.slots_eq_replicate]

theorem foldlM_putGroup_eq_fill (order : ByteOrder) {values : List Value} {groups : List Group}
    {packer : Packer} (enough : packer.index + Group.valueSum groups = values.length) :
    groups.foldlM (putGroup order values) packer =
      packer.fill order (groups.flatMap Group.slots) (values.drop packer.index) := by
  induction groups generalizing packer with
  | nil => exact (fill_nil order _ packer).symm
  | cons group later laterIH =>
      rw [Group.valueSum_cons] at enough
      have available : packer.index + group.valueCount ≤ values.length := by omega
      have taken := next?_eq_some_iff.mpr ⟨available, rfl⟩
      have windowLength := (length_of_next? taken).trans group.length_slots.symm
      have window := List.take_append_drop group.valueCount (values.drop packer.index)
      rw [List.foldlM_cons, putGroup_eq_fill order available, List.flatMap_cons]
      conv => rhs; rw [← window]
      rw [fill_append order packer windowLength, List.drop_drop]
      cases filled : packer.fill order group.slots
          ((values.drop packer.index).take group.valueCount) with
      | error error => rfl
      | ok next =>
          have moved := index_of_fill filled
          rw [Group.length_slots] at moved
          simp only [bind, Except.bind]
          rw [laterIH (by omega), moved]

end Packer

namespace Layout

/-- Packing is the encoding of the slots, wherever there is one value for each. -/
theorem pack_eq {layout : Layout} (exact : layout.Exact) (values : List Value) :
    layout.pack values =
      if values.length = layout.slots.length then
        Slot.encodeAll layout.order 0 layout.slots values
      else
        .error (.arity layout.valueCount values.length) := by
  unfold pack
  by_cases full : values.length = layout.slots.length
  · have enough : Packer.start.index + Group.valueSum layout.groups = values.length := by
      rw [full, slots, Group.length_flatMap_slots]
      simp [Packer.start]
    have walked := Packer.foldlM_putGroup_eq_fill layout.order enough
    rw [if_pos full, if_neg (by simp [full, exact.valueCount])]
    simp only [bind, Except.bind]
    rw [walked]
    simp only [Packer.fill, Packer.start, slots, List.drop_zero]
    cases Slot.encodeAll layout.order 0 (layout.groups.flatMap Group.slots) values with
    | error error => rfl
    | ok bytes => simp [Except.map, pure, Except.pure]
  · rw [if_neg full, if_pos (by rw [exact.valueCount]; exact full)]
    rfl

theorem encodeAll_of_pack {layout : Layout} (exact : layout.Exact) {values : List Value}
    {packed : Bytes} (accepted : layout.pack values = .ok packed) :
    values.length = layout.slots.length ∧
      Slot.encodeAll layout.order 0 layout.slots values = .ok packed := by
  rw [pack_eq exact] at accepted
  split at accepted
  next full => exact ⟨full, accepted⟩
  next => cases accepted

end Layout

end BinaryRecord
