import BinaryRecord.Bytes
import BinaryRecord.Field

/-!
# Values

A value is one element of the flat sequence that a record stands for. Integers are machine words.
Floating-point values are kept as bit patterns, so equality of values is equality of every bit.
Main statement: `Value.int64?_eq_some_iff`, by which the signed word is the integer itself.
-/

set_option autoImplicit false

attribute [local instance (high)] instPowNat

namespace BinaryRecord

/-- A value with its kind. A character is a single byte. -/
inductive Value where
  | char (byte : UInt8)
  | int8 (number : Int8)
  | uint8 (number : UInt8)
  | bool (truth : Bool)
  | int16 (number : Int16)
  | uint16 (number : UInt16)
  | int32 (number : Int32)
  | uint32 (number : UInt32)
  | int64 (number : Int64)
  | uint64 (number : UInt64)
  | float16 (bits : UInt16)
  | float32 (bits : UInt32)
  | float64 (bits : UInt64)
  | bytes (content : Bytes)
  deriving DecidableEq, Repr

namespace Value

def kind : Value → Kind
  | .char _ => .char
  | .int8 _ => .int8
  | .uint8 _ => .uint8
  | .bool _ => .bool
  | .int16 _ => .int16
  | .uint16 _ => .uint16
  | .int32 _ => .int32
  | .uint32 _ => .uint32
  | .int64 _ => .int64
  | .uint64 _ => .uint64
  | .float16 _ => .float16
  | .float32 _ => .float32
  | .float64 _ => .float64
  | .bytes _ => .bytes

def bytes? : Value → Option Bytes
  | .bytes content => some content
  | _ => none

def bool? : Value → Option Bool
  | .bool truth => some truth
  | _ => none

/-- The integer that an integer value holds. A character holds its byte. -/
def integer? : Value → Option Int
  | .char byte => some byte.toNat
  | .int8 number => some number.toInt
  | .uint8 number => some number.toNat
  | .int16 number => some number.toInt
  | .uint16 number => some number.toNat
  | .int32 number => some number.toInt
  | .uint32 number => some number.toNat
  | .int64 number => some number.toInt
  | .uint64 number => some number.toNat
  | _ => none

/-- The integer as a signed word of 64 bits, where it fits one. -/
def int64? (value : Value) : Option Int64 :=
  match value.integer? with
  | some number => if number < 2 ^ (63 : Nat) then some (Int64.ofInt number) else none
  | none => none

theorem le_of_integer? {value : Value} {number : Int} (held : value.integer? = some number) :
    -2 ^ (63 : Nat) ≤ number := by
  cases value with
  | int8 word =>
      have bound := word.le_toInt
      simp only [integer?, Option.some.injEq] at held
      omega
  | int16 word =>
      have bound := word.le_toInt
      simp only [integer?, Option.some.injEq] at held
      omega
  | int32 word =>
      have bound := word.le_toInt
      simp only [integer?, Option.some.injEq] at held
      omega
  | int64 word =>
      have bound := word.le_toInt
      simp only [integer?, Option.some.injEq] at held
      omega
  | char | uint8 | uint16 | uint32 | uint64 =>
      simp only [integer?, Option.some.injEq] at held
      omega
  | bool | float16 | float32 | float64 | bytes => simp [integer?] at held

theorem int64?_eq_some_iff {value : Value} {word : Int64} :
    value.int64? = some word ↔ value.integer? = some word.toInt := by
  unfold int64?
  cases held : value.integer? with
  | none => simp
  | some number =>
      have lower := le_of_integer? held
      change (if number < 2 ^ (63 : Nat) then some (Int64.ofInt number) else none) = some word ↔
        some number = some word.toInt
      constructor
      · intro fits
        split at fits
        · rename_i upper
          obtain rfl := Option.some.inj fits
          rw [Int64.toInt_ofInt_of_le lower upper]
        · simp at fits
      · intro same
        obtain rfl := Option.some.inj same
        rw [if_pos word.toInt_lt, Int64.ofInt_toInt]

/-- The value of a text: the bytes of its encoding in UTF-8. -/
def ofString (text : String) : Value :=
  .bytes text.toUTF8.toList

end Value

end BinaryRecord
