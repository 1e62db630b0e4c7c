import BinaryRecord.ByteOrder
import BinaryRecord.Field.Error
import BinaryRecord.Value

/-!
# Fields as bytes

Reading a single field from the front of a byte string and writing it at the end of one. A scalar
field holds an unsigned number in the chosen byte order; `Field.valueOf` and `Value.code` relate
that number to the value. A byte string is kept as it is and cut to the length of its field.
-/

set_option autoImplicit false

namespace BinaryRecord

/-- The value that a field holds when its bytes stand for the number `code`. Signed integers are
read in two's complement, and every number but zero is true. -/
def Field.valueOf (field : Field) (code : Nat) : Value :=
  match field with
  | .char => .char (UInt8.ofNat code)
  | .signedChar => .int8 (Int8.ofNat code)
  | .unsignedChar => .uint8 (UInt8.ofNat code)
  | .bool => .bool (code ≠ 0)
  | .short => .int16 (Int16.ofNat code)
  | .unsignedShort => .uint16 (UInt16.ofNat code)
  | .int | .long => .int32 (Int32.ofNat code)
  | .unsignedInt | .unsignedLong => .uint32 (UInt32.ofNat code)
  | .longLong => .int64 (Int64.ofNat code)
  | .unsignedLongLong => .uint64 (UInt64.ofNat code)
  | .half => .float16 (UInt16.ofNat code)
  | .float => .float32 (UInt32.ofNat code)
  | .double => .float64 (UInt64.ofNat code)
  | .bytes => .bytes [UInt8.ofNat code]

/-- The number whose digits a field stores for the value. -/
def Value.code : Value → Nat
  | .char byte => byte.toNat
  | .int8 number => number.toUInt8.toNat
  | .uint8 number => number.toNat
  | .bool truth => truth.toNat
  | .int16 number => number.toUInt16.toNat
  | .uint16 number => number.toNat
  | .int32 number => number.toUInt32.toNat
  | .uint32 number => number.toNat
  | .int64 number => number.toUInt64.toNat
  | .uint64 number => number.toNat
  | .float16 bits => bits.toNat
  | .float32 bits => bits.toNat
  | .float64 bits => bits.toNat
  | .bytes content => Bytes.toNat content

/-- Reads a field from the front of `bytes`. Bytes after the field are not looked at. -/
def Field.decode (field : Field) (order : ByteOrder) (bytes : Bytes) : Except FieldError Value :=
  if bytes.length < field.width then
    .error (.truncated field.width bytes.length)
  else
    .ok (field.valueOf (order.read (bytes.take field.width)))

/-- Reads a byte string of `count` bytes from the front of `bytes`. -/
def decodeBytes (count : Nat) (bytes : Bytes) : Except FieldError Value :=
  if bytes.length < count then
    .error (.truncated count bytes.length)
  else
    .ok (.bytes (bytes.take count))

/-- The first `count` bytes of a byte string, which must have as many. -/
def encodeBytes (count : Nat) (content : Bytes) : Except FieldError Bytes :=
  if content.length < count then
    .error (.stringLength count content.length)
  else
    .ok (content.take count)

/-- The bytes of a field that holds the value. A byte-string field stands here for its unit, a
single byte. -/
def Field.encode (field : Field) (order : ByteOrder) (value : Value) : Except FieldError Bytes :=
  if value.kind = field.kind then
    match value with
    | .bytes content => encodeBytes field.width content
    | scalar => .ok (order.write field.width scalar.code)
  else
    .error (.typeMismatch field field.kind value.kind)

/-- Appends the bytes of an encoding to an output buffer. The buffer is left as it was where there
is no encoding. -/
def appendEncoding (encoding : Except FieldError Bytes) : EStateM FieldError Bytes Unit := do
  match encoding with
  | .ok bytes => modify (· ++ bytes)
  | .error error => throw error

def Field.append (field : Field) (order : ByteOrder) (value : Value) :
    EStateM FieldError Bytes Unit :=
  appendEncoding (field.encode order value)

def appendBytes (count : Nat) (content : Bytes) : EStateM FieldError Bytes Unit :=
  appendEncoding (encodeBytes count content)

def Value.ofChar (c : Char) : Except FieldError Value :=
  if c.toNat < 256 then .ok (.char (UInt8.ofNat c.toNat)) else .error (.charRange c)

end BinaryRecord
