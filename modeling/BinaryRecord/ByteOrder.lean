import BinaryRecord.Bytes

/-!
# Byte orders

The two orders in which a number's bytes stand, and the markers that select one. Main statement:
`ByteOrder.read_write`.
-/

set_option autoImplicit false

attribute [local instance (high)] instPowNat

namespace BinaryRecord

inductive ByteOrder where
  | little
  | big
  deriving DecidableEq, Repr

namespace ByteOrder

def default : ByteOrder := .little

/-- The order of the machine, which the markers of native order select. -/
def native : ByteOrder := .little

/-- The order that a marker selects: two markers name an order outright, one names the order of
network protocols, which is big-endian, and two name the native order. -/
def ofMarker? : Char → Option ByteOrder
  | '<' => some .little
  | '>' => some .big
  | '!' => some .big
  | '=' => some native
  | '@' => some native
  | _ => none

def marker : ByteOrder → Char
  | .little => '<'
  | .big => '>'

theorem ofMarker?_marker (order : ByteOrder) : ofMarker? order.marker = some order := by
  cases order <;> rfl

/-- Rearranges bytes between their order and least significant first. It is its own inverse. -/
def arrange : ByteOrder → Bytes → Bytes
  | .little, bytes => bytes
  | .big, bytes => bytes.reverse

@[simp] theorem length_arrange (order : ByteOrder) (bytes : Bytes) :
    (order.arrange bytes).length = bytes.length := by
  cases order <;> simp [arrange]

@[simp] theorem arrange_arrange (order : ByteOrder) (bytes : Bytes) :
    order.arrange (order.arrange bytes) = bytes := by
  cases order <;> simp [arrange]

/-- The number that bytes in this order stand for. -/
def read (order : ByteOrder) (bytes : Bytes) : Nat :=
  Bytes.toNat (order.arrange bytes)

/-- The bytes, in this order, of the lowest `width` base-256 digits of a number. -/
def write (order : ByteOrder) (width n : Nat) : Bytes :=
  order.arrange (Bytes.ofNat width n)

@[simp] theorem length_write (order : ByteOrder) (width n : Nat) :
    (order.write width n).length = width := by
  simp [write]

theorem read_write (order : ByteOrder) (width n : Nat) :
    order.read (order.write width n) = n % 256 ^ width := by
  simp [read, write, Bytes.toNat_ofNat]

theorem write_read (order : ByteOrder) (bytes : Bytes) :
    order.write bytes.length (order.read bytes) = bytes := by
  have arranged := Bytes.ofNat_toNat (order.arrange bytes)
  rw [length_arrange] at arranged
  rw [write, read, arranged, arrange_arrange]

end ByteOrder

end BinaryRecord
