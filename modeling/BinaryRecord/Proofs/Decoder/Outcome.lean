import BinaryRecord.Proofs.Unpacking.Slots

/-!
# What a decoder gives

The items of a decoder are values, in order, and at most one error, which is the last of them.
-/

set_option autoImplicit false

namespace BinaryRecord

namespace Decoder

def values (decoder : Decoder) : List Value :=
  decoder.items.filterMap Except.toOption

def error? (decoder : Decoder) : Option UnpackError :=
  decoder.items.findSome? fun
    | .ok _ => none
    | .error error => some error

theorem items_of_next_error {decoder after : Decoder} {error : UnpackError}
    (step : decoder.next = (some (.error error), after)) : decoder.items = [.error error] := by
  have failed : after.failed = true := by
    unfold next at step
    split at step
    · cases step
    · split at step
      · cases step
      · split at step
        · cases step
        · cases step
          rfl
  rw [items_of_next_some step, items_of_failed failed]

theorem script_of_next_none {decoder after : Decoder} (step : decoder.next = (none, after)) :
    decoder.values = [] ∧ decoder.error? = none := by
  rw [values, error?, items_of_next_none step]
  exact ⟨rfl, rfl⟩

theorem script_of_next_error {decoder after : Decoder} {error : UnpackError}
    (step : decoder.next = (some (.error error), after)) :
    decoder.values = [] ∧ decoder.error? = some error := by
  rw [values, error?, items_of_next_error step]
  exact ⟨rfl, rfl⟩

theorem script_of_next_ok {decoder after : Decoder} {value : Value}
    (step : decoder.next = (some (.ok value), after)) :
    decoder.values = value :: after.values ∧ decoder.error? = after.error? := by
  rw [values, error?, items_of_next_some step]
  exact ⟨rfl, rfl⟩

end Decoder

/-- A buffer of the size of a record is decoded to the end, and gives what unpacking it gives. -/
theorem Layout.unpack_eq_values {layout : Layout} {buffer : Bytes} (exact : layout.Exact)
    (full : buffer.length = layout.size) :
    layout.unpack buffer = .ok (layout.decoder buffer).values ∧
      (layout.decoder buffer).error? = none := by
  have enough : Slot.widthSum layout.slots ≤ buffer.length := by
    rw [full, exact.size]
    exact Nat.le_refl _
  rw [unpack_of_length exact full, Decoder.values, Decoder.error?, items_decoder_of_le enough]
  constructor
  · congr 1
    induction Slot.readAll layout.order layout.slots buffer with
    | nil => rfl
    | cons value values ih => exact congrArg (value :: ·) ih
  · rw [List.findSome?_eq_none_iff]
    intro item member
    obtain ⟨value, _, rfl⟩ := List.mem_map.mp member
    rfl

end BinaryRecord
