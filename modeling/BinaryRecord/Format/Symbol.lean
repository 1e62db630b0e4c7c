import BinaryRecord.ByteOrder
import BinaryRecord.Field
import BinaryRecord.Text.Blank

/-!
# Symbols of a format

The part that a character plays in the text of a format. Digits, tags, markers and blanks are
different characters, so every character plays one part.
-/

set_option autoImplicit false

namespace BinaryRecord

inductive Symbol where
  /-- A digit of a repeat count. Only the ten digits of ASCII are digits here. -/
  | digit (value : Nat)
  | tag (field : Field)
  | marker (order : ByteOrder)
  | blank
  | other
  deriving DecidableEq, Repr

/-- The part that a character plays in the text of a format. -/
def Symbol.ofChar (c : Char) : Symbol :=
  if c.isDigit then .digit (c.toNat - '0'.toNat)
  else match Field.ofTag? c, ByteOrder.ofMarker? c with
    | some field, _ => .tag field
    | none, some order => .marker order
    | none, none => if Text.isBlank c then .blank else .other

@[simp] theorem Symbol.ofChar_tag (field : Field) : Symbol.ofChar field.tag = .tag field := by
  cases field <;> rfl

end BinaryRecord
