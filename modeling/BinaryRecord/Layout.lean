import BinaryRecord.Format

/-!
# Layouts

A layout is a format together with the size of its records and the number of their values. Both
totals are found once, and a format whose records would have no size has no layout.
-/

set_option autoImplicit false

namespace BinaryRecord

structure Totals where
  size : Nat
  valueCount : Nat
  deriving DecidableEq, Repr

namespace Totals

/-- The totals with one more group, where the group's length and the sum are sizes. -/
def add? (totals : Totals) (group : Group) : Option Totals := do
  let length ← group.length?
  let size ← Size.ofNat? (totals.size + length)
  return ⟨size, totals.valueCount + group.valueCount⟩

def ofGroups? (groups : List Group) : Option Totals :=
  groups.foldlM add? ⟨0, 0⟩

end Totals

/-- A compiled format. Two layouts are equal only if their formats were written alike. -/
structure Layout where
  source : String
  format : Format
  size : Nat
  valueCount : Nat
  deriving DecidableEq, Repr

namespace Layout

def compile (source : String) : Except FormatError Layout := do
  let format ← Format.parse source
  match Totals.ofGroups? format.groups with
  | some totals => return ⟨source, format, totals.size, totals.valueCount⟩
  | none => throw .sizeOverflow

def order (layout : Layout) : ByteOrder :=
  layout.format.order

def groups (layout : Layout) : List Group :=
  layout.format.groups

def text (layout : Layout) : String :=
  layout.format.text

end Layout

end BinaryRecord
