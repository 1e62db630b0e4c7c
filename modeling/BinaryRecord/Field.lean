/-!
# Field types

The closed registry of field types: the tag that names each in a format, its width, its display
name, and the kind of value that it holds. Main statement: `Field.ofTag?_eq_some_iff`, by which a
tag and its field determine each other.
-/

set_option autoImplicit false

namespace BinaryRecord

inductive Kind where
  | char
  | int8
  | uint8
  | bool
  | int16
  | uint16
  | int32
  | uint32
  | int64
  | uint64
  | float16
  | float32
  | float64
  | bytes
  deriving DecidableEq, Repr

namespace Kind

def all : List Kind :=
  [.char, .int8, .uint8, .bool, .int16, .uint16, .int32, .uint32, .int64, .uint64, .float16,
    .float32, .float64, .bytes]

def name : Kind → String
  | .char => "char"
  | .int8 => "i8"
  | .uint8 => "u8"
  | .bool => "bool"
  | .int16 => "i16"
  | .uint16 => "u16"
  | .int32 => "i32"
  | .uint32 => "u32"
  | .int64 => "i64"
  | .uint64 => "u64"
  | .float16 => "f16"
  | .float32 => "f32"
  | .float64 => "f64"
  | .bytes => "bytes"

end Kind

/-- The type of a field. `long` and `unsignedLong` have the layout of `int` and `unsignedInt` and
differ from them in tag and name only. -/
inductive Field where
  | char
  | signedChar
  | unsignedChar
  | bool
  | short
  | unsignedShort
  | int
  | unsignedInt
  | long
  | unsignedLong
  | longLong
  | unsignedLongLong
  | half
  | float
  | double
  | bytes
  deriving DecidableEq, Repr

namespace Field

/-- Every field type, in the order of the registry. -/
def all : List Field :=
  [.char, .signedChar, .unsignedChar, .bool, .short, .unsignedShort, .int, .unsignedInt, .long,
    .unsignedLong, .longLong, .unsignedLongLong, .half, .float, .double, .bytes]

def tag : Field → Char
  | .char => 'c'
  | .signedChar => 'b'
  | .unsignedChar => 'B'
  | .bool => '?'
  | .short => 'h'
  | .unsignedShort => 'H'
  | .int => 'i'
  | .unsignedInt => 'I'
  | .long => 'l'
  | .unsignedLong => 'L'
  | .longLong => 'q'
  | .unsignedLongLong => 'Q'
  | .half => 'e'
  | .float => 'f'
  | .double => 'd'
  | .bytes => 's'

def ofTag? : Char → Option Field
  | 'c' => some .char
  | 'b' => some .signedChar
  | 'B' => some .unsignedChar
  | '?' => some .bool
  | 'h' => some .short
  | 'H' => some .unsignedShort
  | 'i' => some .int
  | 'I' => some .unsignedInt
  | 'l' => some .long
  | 'L' => some .unsignedLong
  | 'q' => some .longLong
  | 'Q' => some .unsignedLongLong
  | 'e' => some .half
  | 'f' => some .float
  | 'd' => some .double
  | 's' => some .bytes
  | _ => none

/-- The number of bytes of one unit. For a byte string the unit is a single byte. -/
def width : Field → Nat
  | .char | .signedChar | .unsignedChar | .bool | .bytes => 1
  | .short | .unsignedShort | .half => 2
  | .int | .unsignedInt | .long | .unsignedLong | .float => 4
  | .longLong | .unsignedLongLong | .double => 8

def name : Field → String
  | .char => "char"
  | .signedChar => "signed char"
  | .unsignedChar => "unsigned char"
  | .bool => "_Bool"
  | .short => "short"
  | .unsignedShort => "unsigned short"
  | .int => "int"
  | .unsignedInt => "unsigned int"
  | .long => "long"
  | .unsignedLong => "unsigned long"
  | .longLong => "long long"
  | .unsignedLongLong => "unsigned long long"
  | .half => "half"
  | .float => "float"
  | .double => "double"
  | .bytes => "char[]"

def kind : Field → Kind
  | .char => .char
  | .signedChar => .int8
  | .unsignedChar => .uint8
  | .bool => .bool
  | .short => .int16
  | .unsignedShort => .uint16
  | .int | .long => .int32
  | .unsignedInt | .unsignedLong => .uint32
  | .longLong => .int64
  | .unsignedLongLong => .uint64
  | .half => .float16
  | .float => .float32
  | .double => .float64
  | .bytes => .bytes

/-- Whether a group of the field is one byte string, however often the tag is repeated. -/
def isBytes (field : Field) : Bool :=
  field = .bytes

theorem width_pos (field : Field) : 0 < field.width := by
  cases field <;> decide

@[simp] theorem ofTag?_tag (field : Field) : ofTag? field.tag = some field := by
  cases field <;> rfl

theorem ofTag?_eq_some_iff {c : Char} {field : Field} :
    ofTag? c = some field ↔ c = field.tag := by
  constructor
  · intro found
    unfold ofTag? at found
    split at found <;> simp_all [tag] <;> subst field <;> rfl
  · rintro rfl
    exact ofTag?_tag field

theorem kind_eq_bytes_iff {field : Field} : field.kind = .bytes ↔ field = .bytes := by
  cases field <;> decide

end Field

end BinaryRecord
