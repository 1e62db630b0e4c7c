import BinaryRecord.Bytes

/-!
# Overwritten byte strings

A byte string as a length and a byte at every position, zero from its end on. In this view an
overwriting changes its own span and nothing else, and the zeros that lengthen a target are not
seen.
-/

set_option autoImplicit false

namespace BinaryRecord.Bytes

/-- The byte at a position, which is zero after the end. -/
def cell (bytes : Bytes) (position : Nat) : UInt8 :=
  bytes[position]?.getD 0

theorem getElem?_eq_cell {bytes : Bytes} {position : Nat} (inside : position < bytes.length) :
    bytes[position]? = some (bytes.cell position) := by
  simp [cell, inside]

theorem cell_of_length_le {bytes : Bytes} {position : Nat} (past : bytes.length ≤ position) :
    bytes.cell position = 0 := by
  simp [cell, past]

theorem ext_cell {bytes other : Bytes} (length : bytes.length = other.length)
    (cells : ∀ position, bytes.cell position = other.cell position) : bytes = other := by
  apply List.ext_getElem?
  intro position
  by_cases inside : position < bytes.length
  · rw [getElem?_eq_cell inside, getElem?_eq_cell (length ▸ inside), cells]
  · have past := Nat.le_of_not_lt inside
    rw [List.getElem?_eq_none past, List.getElem?_eq_none (length ▸ past)]

theorem cell_append_left {front : Bytes} (back : Bytes) {position : Nat}
    (inside : position < front.length) : cell (front ++ back) position = front.cell position := by
  rw [cell, List.getElem?_append_left inside, cell]

theorem cell_append_right {front : Bytes} (back : Bytes) {position : Nat}
    (past : front.length ≤ position) :
    cell (front ++ back) position = back.cell (position - front.length) := by
  rw [cell, List.getElem?_append_right past, cell]

theorem cell_append_zeros (bytes : Bytes) (zeros position : Nat) :
    cell (bytes ++ List.replicate zeros 0) position = bytes.cell position := by
  by_cases inside : position < bytes.length
  · exact cell_append_left _ inside
  · have past := Nat.le_of_not_lt inside
    rw [cell_append_right _ past, cell_of_length_le past, cell, List.getElem?_replicate]
    split <;> rfl

variable {offset position : Nat} {patch : Bytes}

private theorem length_take_grown (offset : Nat) (patch target : Bytes) :
    (List.take offset
      (target ++ List.replicate (offset + patch.length - target.length) 0)).length = offset := by
  rw [List.length_take, List.length_append, List.length_replicate]
  omega

theorem cell_overwrite_of_inside (target : Bytes) (lower : offset ≤ position)
    (upper : position < offset + patch.length) :
    (overwrite offset patch target).cell position = patch.cell (position - offset) := by
  unfold overwrite
  have front := length_take_grown offset patch target
  rw [List.append_assoc, cell_append_right _ (by omega), front, cell_append_left _ (by omega)]

theorem cell_overwrite_of_outside (target : Bytes)
    (outside : position < offset ∨ offset + patch.length ≤ position) :
    (overwrite offset patch target).cell position = target.cell position := by
  unfold overwrite
  have front := length_take_grown offset patch target
  rw [List.append_assoc]
  rcases outside with before | behind
  · rw [cell_append_left _ (by omega), cell, List.getElem?_take_of_lt before]
    exact cell_append_zeros target _ position
  · have shifted : offset + patch.length + (position - offset - patch.length) = position := by
      omega
    rw [cell_append_right _ (by omega), front, cell_append_right _ (by omega), cell,
      List.getElem?_drop, shifted]
    exact cell_append_zeros target _ position

/-- From the offset on, the patch stands before what the target holds behind it. -/
theorem drop_overwrite (offset : Nat) (patch target : Bytes) :
    (overwrite offset patch target).drop offset =
      patch ++ target.drop (offset + patch.length) := by
  have zeros : (List.replicate (offset + patch.length - target.length) (0 : UInt8)).drop
      (offset + patch.length - target.length) = [] := by simp
  have back : (target ++ List.replicate (offset + patch.length - target.length) 0).drop
      (offset + patch.length) = target.drop (offset + patch.length) := by
    rw [List.drop_append, zeros, List.append_nil]
  simp only [overwrite, back, List.append_assoc]
  exact List.drop_left' (length_take_grown offset patch target)

end BinaryRecord.Bytes
