import BinaryRecord.Field
import BinaryRecord.Size

/-!
# Groups

A group is a repeated field of a record. A byte string of any length is one value; every other group
has as many values as its field is repeated.
-/

set_option autoImplicit false

namespace BinaryRecord

/-- A field with its repeat count, which is never zero. -/
structure Group where
  count : Nat
  field : Field
  count_pos : 0 < count
  deriving DecidableEq, Repr

namespace Group

def single (field : Field) : Group :=
  ⟨1, field, Nat.one_pos⟩

def length (group : Group) : Nat :=
  group.count * group.field.width

/-- The number of bytes of the group, where it is a size. -/
def length? (group : Group) : Option Nat :=
  Size.ofNat? group.length

def valueCount (group : Group) : Nat :=
  if group.field.isBytes then 1 else group.count

/-- The text of the group in a format. A count of one is left out. -/
def text (group : Group) : String :=
  if group.count = 1 then String.singleton group.field.tag
  else (toString group.count).push group.field.tag

theorem length_pos (group : Group) : 0 < group.length :=
  Nat.mul_pos group.count_pos group.field.width_pos

theorem valueCount_pos (group : Group) : 0 < group.valueCount := by
  unfold valueCount
  split
  · exact Nat.one_pos
  · exact group.count_pos

theorem valueCount_le_length (group : Group) : group.valueCount ≤ group.length := by
  unfold valueCount
  split
  · exact group.length_pos
  · exact Nat.le_mul_of_pos_right _ group.field.width_pos

end Group

end BinaryRecord
