import BinaryRecord.Size

/-!
# Byte strings

Byte strings as lists, the natural numbers that they write in base 256, and overwriting a span of
a byte string. Main statements: `Bytes.toNat_ofNat` and `Bytes.ofNat_toNat`, by which the byte
strings of one width stand for exactly the numbers below `256 ^ width`.
-/

set_option autoImplicit false

attribute [local instance (high)] instPowNat

namespace BinaryRecord

abbrev Bytes := List UInt8

namespace Bytes

/-- The number whose base-256 digits are the bytes, the least significant first. -/
def toNat : Bytes → Nat
  | [] => 0
  | byte :: rest => byte.toNat + 256 * toNat rest

/-- The lowest `width` base-256 digits of a number, the least significant first. -/
def ofNat : Nat → Nat → Bytes
  | 0, _ => []
  | width + 1, n => UInt8.ofNat n :: ofNat width (n / 256)

@[simp] theorem length_ofNat (width n : Nat) : (ofNat width n).length = width := by
  induction width generalizing n with
  | zero => rfl
  | succ width widthIH => simp [ofNat, widthIH]

theorem toNat_lt (bytes : Bytes) : toNat bytes < 256 ^ bytes.length := by
  induction bytes with
  | nil => simp [toNat]
  | cons byte rest restIH =>
      have byteBound := byte.toNat_lt
      simp only [toNat, List.length_cons, Nat.pow_succ]
      omega

theorem toNat_ofNat (width n : Nat) : toNat (ofNat width n) = n % 256 ^ width := by
  induction width generalizing n with
  | zero => simp [ofNat, toNat, Nat.mod_one]
  | succ width widthIH =>
      simp only [ofNat, toNat, widthIH, UInt8.toNat_ofNat']
      have widened : 256 ^ (width + 1) = 256 * 256 ^ width := Nat.pow_succ'
      rw [widened, Nat.mod_mul]

theorem ofNat_toNat (bytes : Bytes) : ofNat bytes.length (toNat bytes) = bytes := by
  induction bytes with
  | nil => rfl
  | cons byte rest restIH =>
      have byteBound := byte.toNat_lt
      have low : UInt8.ofNat (byte.toNat + 256 * toNat rest) = byte := by
        apply UInt8.toNat_inj.mp
        rw [UInt8.toNat_ofNat']
        omega
      have high : (byte.toNat + 256 * toNat rest) / 256 = toNat rest := by omega
      simp only [List.length_cons, toNat, ofNat, low, high, restIH]

/-- Overwrites the span of `patch` at `offset`. A target that ends before the span does is first
lengthened with zero bytes, so a gap before the span reads as zeros. -/
def overwrite (offset : Nat) (patch target : Bytes) : Bytes :=
  let grown := target ++ List.replicate (offset + patch.length - target.length) 0
  grown.take offset ++ patch ++ grown.drop (offset + patch.length)

theorem length_overwrite (offset : Nat) (patch target : Bytes) :
    (overwrite offset patch target).length = max target.length (offset + patch.length) := by
  simp only [overwrite, List.length_append, List.length_take, List.length_drop,
    List.length_replicate]
  omega

end Bytes

end BinaryRecord
