import BinaryRecord.ByteOrder
import Mathlib.Algebra.BigOperators.Ring.Finset

/-!
# Positional numbers

The number that bytes stand for, written out as the sum of their digits by weight, and its reading
by the order of the bytes. Main statement: `ByteOrder.read_take`.
-/

set_option autoImplicit false

attribute [local instance (high)] instPowNat

namespace BinaryRecord

/-- Where the digit of weight `256 ^ k` stands among `width` bytes: counted from the first byte if
the order is little-endian, and backwards from the last one if it is big-endian. -/
def ByteOrder.position (order : ByteOrder) (width k : Nat) : Nat :=
  match order with
  | .little => k
  | .big => width - 1 - k

/-- The number whose base-256 digits are the first `width` bytes. -/
def ByteOrder.positional (order : ByteOrder) (width : Nat) (bytes : Bytes) : Nat :=
  ∑ k ∈ Finset.range width, (bytes.getD (order.position width k) 0).toNat * 256 ^ k

theorem Bytes.toNat_eq_sum (bytes : Bytes) :
    toNat bytes = ∑ k ∈ Finset.range bytes.length, (bytes.getD k 0).toNat * 256 ^ k := by
  induction bytes with
  | nil => rfl
  | cons byte rest restIH =>
      have shifted (k : Nat) : ((byte :: rest).getD (k + 1) 0).toNat * 256 ^ (k + 1) =
          256 * ((rest.getD k 0).toNat * 256 ^ k) := by
        rw [List.getD_cons_succ, Nat.pow_succ, Nat.mul_comm (256 ^ k), Nat.mul_left_comm]
      rw [List.length_cons, Finset.sum_range_succ', Finset.sum_congr rfl fun k _ => shifted k,
        ← Finset.mul_sum, ← restIH, toNat, List.getD_cons_zero, Nat.pow_zero, Nat.mul_one,
        Nat.add_comm]

namespace ByteOrder

theorem getD_arrange_take (order : ByteOrder) {width k : Nat} {bytes : Bytes}
    (enough : width ≤ bytes.length) (inside : k < width) :
    (order.arrange (bytes.take width)).getD k 0 = bytes.getD (order.position width k) 0 := by
  have length : (bytes.take width).length = width := by
    rw [List.length_take]
    exact Nat.min_eq_left enough
  have digit {place : Nat} (small : place < width) :
      (bytes.take width).getD place 0 = bytes.getD place 0 := by
    rw [List.getD_eq_getElem?_getD, List.getElem?_take_of_lt small, List.getD_eq_getElem?_getD]
  cases order with
  | little => exact digit inside
  | big =>
      have mirrored : width - 1 - k < width := by omega
      rw [arrange, List.getD_eq_getElem?_getD, List.getElem?_reverse (by rwa [length]), length,
        ← List.getD_eq_getElem?_getD, digit mirrored, position]

/-- Reading bytes by their order gives their positional number. -/
theorem read_take (order : ByteOrder) {width : Nat} {bytes : Bytes}
    (enough : width ≤ bytes.length) :
    order.read (bytes.take width) = order.positional width bytes := by
  have length : (order.arrange (bytes.take width)).length = width := by
    rw [length_arrange, List.length_take]
    exact Nat.min_eq_left enough
  rw [read, Bytes.toNat_eq_sum, length, positional]
  refine Finset.sum_congr rfl fun k member => ?_
  rw [getD_arrange_take order enough (Finset.mem_range.mp member)]

theorem positional_lt (order : ByteOrder) {width : Nat} {bytes : Bytes}
    (enough : width ≤ bytes.length) : order.positional width bytes < 256 ^ width := by
  have bounded := Bytes.toNat_lt (order.arrange (bytes.take width))
  rw [length_arrange, List.length_take, Nat.min_eq_left enough] at bounded
  rw [← order.read_take enough]
  exact bounded

end ByteOrder

end BinaryRecord
