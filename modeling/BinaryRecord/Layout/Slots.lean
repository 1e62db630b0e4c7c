import BinaryRecord.Layout

/-!
# Slots

The flat view of a layout: one slot for each value of a record, each with its width in bytes. A
byte-string group is one slot, and any other group is one slot for each repetition. Main statements:
`Group.length_slots` and `Group.sum_slots`, by which slots count values and their widths add up.
-/

set_option autoImplicit false

-- Sums of natural numbers are the core library's, whatever else is in scope.
attribute [local instance (high)] Zero.ofOfNat0

namespace BinaryRecord

/-- The place of one value in a record: the field that it is a value of, and its number of bytes. -/
structure Slot where
  field : Field
  width : Nat
  deriving DecidableEq, Repr

def Group.slots (group : Group) : List Slot :=
  if group.field.isBytes then [⟨group.field, group.count⟩]
  else List.replicate group.count ⟨group.field, group.field.width⟩

namespace Layout

def slots (layout : Layout) : List Slot :=
  layout.groups.flatMap Group.slots

/-- Where the slot at `index` starts: after all slots before it. -/
def offset (layout : Layout) (index : Nat) : Nat :=
  ((layout.slots.take index).map Slot.width).sum

end Layout

@[simp] theorem Group.length_slots (group : Group) : group.slots.length = group.valueCount := by
  unfold slots valueCount
  split <;> simp

@[simp] theorem Group.sum_slots (group : Group) :
    (group.slots.map Slot.width).sum = group.length := by
  unfold slots length
  split
  · rename_i isString
    have string : group.field = .bytes := by simpa [Field.isBytes] using isString
    simp [string, Field.width]
  · simp

end BinaryRecord
