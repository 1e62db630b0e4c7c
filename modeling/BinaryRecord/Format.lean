import BinaryRecord.Format.RepeatCount
import BinaryRecord.Format.Symbol

/-!
# Formats

A format is a byte order and the groups of a record. Its text is an optional marker at the very
start and then the groups, each a tag with its repeat count directly before it. Blanks may stand
before any group and at the end, but not between a count and its tag.
-/

set_option autoImplicit false

namespace BinaryRecord

structure Format where
  order : ByteOrder
  groups : List Group
  deriving DecidableEq, Repr

namespace Format

/-- Reads the groups of a format from the character at `position` on, with the repeat count whose
digits stand directly before it, if there are any. The first character that breaks the grammar
decides the error. -/
def scan (position : Nat) (count : Option RepeatCount) :
    List Char → Except FormatError (List Group)
  | [] =>
      match count with
      | some count => .error count.dangling
      | none => .ok []
  | c :: rest =>
      match Symbol.ofChar c, count with
      | .digit value, count => do
          let count ← (count.getD (.start position)).push c value
          scan (position + 1) (some count) rest
      | .tag field, some count => do
          let group ← count.group field
          let groups ← scan (position + 1) none rest
          return group :: groups
      | .tag field, none => do
          let groups ← scan (position + 1) none rest
          return .single field :: groups
      | .blank, some count => .error count.dangling
      | .blank, none => scan (position + 1) none rest
      | .marker _, _ => .error (.misplacedOrder c position)
      | .other, _ => .error (.badChar c position)

/-- Reads the groups of a format, of which there has to be one at least. -/
def scanGroups (position : Nat) (body : List Char) : Except FormatError (List Group) := do
  match ← scan position none body with
  | [] => .error .empty
  | group :: groups => .ok (group :: groups)

def ofChars : List Char → Except FormatError Format
  | [] => .error .empty
  | c :: rest =>
      match ByteOrder.ofMarker? c with
      | some order => do return ⟨order, ← scanGroups 1 rest⟩
      | none => do return ⟨.default, ← scanGroups 0 (c :: rest)⟩

def parse (text : String) : Except FormatError Format :=
  ofChars text.toList

/-- The canonical text of a format: the marker that names its order outright, then the groups
without blanks. -/
def text (format : Format) : String :=
  String.singleton format.order.marker ++ String.join (format.groups.map Group.text)

end Format

end BinaryRecord
