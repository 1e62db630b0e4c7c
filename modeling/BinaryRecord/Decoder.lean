import BinaryRecord.Field.Codec
import BinaryRecord.Layout
import BinaryRecord.Unpacking.Error

/-!
# Decoders

A decoder walks over a buffer by the groups of a layout and gives one value at each step. It does
not look at the buffer's length beforehand: it gives values while bytes last, one error if the
buffer ends inside a value, and nothing from then on. Bytes after the record are not looked at.
Main statement: `Decoder.budget_next_lt`, by which every decoder comes to its end.
-/

set_option autoImplicit false

attribute [local instance (high)] Zero.ofOfNat0

namespace BinaryRecord

structure Decoder where
  groups : List Group
  order : ByteOrder
  buffer : Bytes
  /-- The number of groups that have been left behind. -/
  group : Nat
  /-- The number of values of the current group that have been given. -/
  unit : Nat
  /-- The number of bytes that have been taken. -/
  offset : Nat
  /-- The number of values that have been given. -/
  index : Nat
  failed : Bool
  deriving DecidableEq, Repr

def Layout.decoder (layout : Layout) (buffer : Bytes) : Decoder :=
  { groups := layout.groups
    order := layout.order
    buffer := buffer
    group := 0
    unit := 0
    offset := 0
    index := 0
    failed := false }

namespace Decoder

def rest (decoder : Decoder) : Bytes :=
  decoder.buffer.drop decoder.offset

/-- The next value by the current group, with the number of bytes that it takes. -/
def read (decoder : Decoder) (group : Group) : Except FieldError (Value × Nat) :=
  if group.field.isBytes then
    (decodeBytes group.count decoder.rest).map fun value => (value, group.count)
  else
    (group.field.decode decoder.order decoder.rest).map fun value => (value, group.field.width)

/-- The decoder after a value of the current group that took `width` bytes. -/
def advance (decoder : Decoder) (group : Group) (width : Nat) : Decoder :=
  let moved := { decoder with offset := decoder.offset + width, index := decoder.index + 1 }
  if decoder.unit + 1 < group.valueCount then
    { moved with unit := decoder.unit + 1 }
  else
    { moved with group := decoder.group + 1, unit := 0 }

/-- One step: the next value or the error that ends decoding, and the decoder after it. -/
def next (decoder : Decoder) : Option (Except UnpackError Value) × Decoder :=
  if decoder.failed then (none, decoder)
  else match decoder.groups[decoder.group]? with
    | none => (none, decoder)
    | some group =>
        match decoder.read group with
        | .ok (value, width) => (some (.ok value), decoder.advance group width)
        | .error error =>
            (some (.error (.ofField decoder.index error)), { decoder with failed := true })

/-- The most items that the decoder can still give: the values that are left, and none after an
error. -/
def itemBound (decoder : Decoder) : Nat :=
  if decoder.failed then 0
  else ((decoder.groups.drop decoder.group).map Group.valueCount).sum - decoder.unit

/-- The bounds of the number of items that are left. No item is promised. -/
def itemBounds (decoder : Decoder) : Nat × Option Nat :=
  (0, some decoder.itemBound)

/-- A number that every item lowers. It counts the values of the current group that are left, at
least one, those of the groups after it, and one for the error. -/
def budget (decoder : Decoder) : Nat :=
  if decoder.failed then 0
  else match decoder.groups.drop decoder.group with
    | [] => 1
    | group :: later =>
        max 1 (group.valueCount - decoder.unit) + (later.map Group.valueCount).sum + 1

theorem budget_advance_lt {decoder : Decoder} {group : Group} (width : Nat)
    (active : decoder.failed = false) (current : decoder.groups[decoder.group]? = some group) :
    (decoder.advance group width).budget < decoder.budget := by
  obtain ⟨inside, rfl⟩ := List.getElem?_eq_some_iff.mp current
  have remaining := List.drop_eq_getElem_cons inside
  unfold advance
  split
  · simp only [budget, active, remaining]
    simp
    omega
  · cases later : decoder.groups.drop (decoder.group + 1) with
    | nil =>
        rw [later] at remaining
        simp only [budget, active, remaining, later, Bool.false_eq_true, if_false, List.map_nil,
          List.sum_nil]
        omega
    | cons following rest =>
        have positive := following.valueCount_pos
        rw [later] at remaining
        simp only [budget, active, remaining, later]
        simp
        omega

theorem budget_next_lt {decoder after : Decoder} {item : Except UnpackError Value}
    (step : decoder.next = (some item, after)) : after.budget < decoder.budget := by
  unfold next at step
  split at step
  · simp at step
  · rename_i active
    have active : decoder.failed = false := by simpa using active
    split at step
    · simp at step
    · rename_i group current
      split at step
      · rename_i value width _
        obtain ⟨_, rfl⟩ := Prod.mk.inj step
        exact budget_advance_lt width active current
      · obtain ⟨_, rfl⟩ := Prod.mk.inj step
        simp only [budget, active]
        simp
        split <;> omega

def drain (decoder : Decoder) : List (Except UnpackError Value) × Decoder :=
  match step : decoder.next with
  | (none, after) => ([], after)
  | (some item, after) =>
      have := budget_next_lt step
      let (items, last) := after.drain
      (item :: items, last)
termination_by decoder.budget

def items (decoder : Decoder) : List (Except UnpackError Value) :=
  decoder.drain.1

end Decoder

end BinaryRecord
