/-!
# Panics

A call panics, and answers nothing, where it would need a buffer longer than any buffer can be, and
where a thread cannot bear the name that is asked for. What the call was to work on is then as it
was before.
-/

set_option autoImplicit false

namespace BinaryRecord

inductive Panic where
  /-- A buffer would reach the length that no buffer has. -/
  | capacityOverflow
  /-- The name asked for has a NUL character in it. -/
  | threadName (name : String)
  deriving DecidableEq, Repr

namespace Panic

/-- The message, which gives the bytes of a thread's name and the place of the first NUL. -/
def message : Panic → String
  | .capacityOverflow => "capacity overflow"
  | .threadName name =>
      let bytes := name.toUTF8.toList
      let place := (bytes.takeWhile (· ≠ 0)).length
      let shown := ", ".intercalate (bytes.map fun byte => Nat.repr byte.toNat)
      s!"thread name may not contain interior null bytes: NulError({place}, [{shown}])"

end Panic

/-- Why a call has no result: it has answered an error, or it has panicked. -/
inductive CallFailure (ε : Type) where
  | answered (error : ε)
  | panicked (panic : Panic)
  deriving DecidableEq, Repr

def CallFailure.map {ε ε' : Type} (convert : ε → ε') : CallFailure ε → CallFailure ε'
  | .answered error => .answered (convert error)
  | .panicked panic => .panicked panic

end BinaryRecord
