import BinaryRecord.Format.Error
import BinaryRecord.Group

/-!
# Repeat counts

A repeat count while its digits are read one by one.
-/

set_option autoImplicit false

namespace BinaryRecord

/-- A repeat count: where its first digit stands, its digits as they are written, and its value. -/
structure RepeatCount where
  position : Nat
  digits : List Char
  value : Nat
  deriving DecidableEq, Repr

namespace RepeatCount

def start (position : Nat) : RepeatCount :=
  ⟨position, [], 0⟩

/-- The count with one more digit of the given value, which has to leave it a size. -/
def push (count : RepeatCount) (digit : Char) (value : Nat) : Except FormatError RepeatCount :=
  match Size.ofNat? (count.value * 10 + value) with
  | some total => .ok ⟨count.position, count.digits ++ [digit], total⟩
  | none => .error (.countOverflow count.position)

def group (count : RepeatCount) (field : Field) : Except FormatError Group :=
  if positive : 0 < count.value then .ok ⟨count.value, field, positive⟩
  else .error (.zeroCount count.position)

def dangling (count : RepeatCount) : FormatError :=
  .danglingCount (String.ofList count.digits) count.position

end RepeatCount

end BinaryRecord
