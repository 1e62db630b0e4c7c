import BinaryRecord.Text.Hidden

/-!
# Quoted text

The written forms of a single character, a text and a byte string between quotes. A backslash
starts an escape, the closing quote is escaped, and what would leave no mark is shown by its code.
-/

set_option autoImplicit false

namespace BinaryRecord.Text

/-- A number in lowercase hexadecimal, with zeros in front up to the given number of digits. -/
def hexadecimal (digits n : Nat) : String :=
  let written := Nat.toDigits 16 n
  String.ofList (List.replicate (digits - written.length) '0' ++ written)

/-- The code point of a character as it is usually cited: at least four uppercase digits. -/
def codePoint (c : Char) : String :=
  "U+" ++ (hexadecimal 4 c.toNat).toUpper

/-- A character inside quotes. The quote that closes the text is escaped, the other is not. -/
def escapeChar (quote c : Char) : String :=
  if c = '\x00' then "\\0"
  else if c = '\t' then "\\t"
  else if c = '\n' then "\\n"
  else if c = '\r' then "\\r"
  else if c = '\\' then "\\\\"
  else if c = quote then String.ofList ['\\', quote]
  else if isHidden c then "\\u\x7b" ++ hexadecimal 1 c.toNat ++ "\x7d"
  else String.singleton c

def quoteChar (c : Char) : String :=
  "'" ++ escapeChar '\'' c ++ "'"

def quote (text : String) : String :=
  "\"" ++ String.join (text.toList.map (escapeChar '"')) ++ "\""

/-- A byte inside quotes. Both quotes are escaped, and a byte outside printable ASCII is shown by
its two hexadecimal digits. -/
def escapeByte (byte : UInt8) : String :=
  let c := Char.ofNat byte.toNat
  if c = '\t' then "\\t"
  else if c = '\n' then "\\n"
  else if c = '\r' then "\\r"
  else if c = '\\' ∨ c = '\'' ∨ c = '"' then String.ofList ['\\', c]
  else if 0x20 ≤ byte ∧ byte ≤ 0x7E then String.singleton c
  else "\\x" ++ hexadecimal 2 byte.toNat

/-- A byte string between double quotes, marked by a leading letter. -/
def quoteBytes (bytes : List UInt8) : String :=
  "b\"" ++ String.join (bytes.map escapeByte) ++ "\""

end BinaryRecord.Text
