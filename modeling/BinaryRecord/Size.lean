/-!
# Sizes

Byte sizes, repeat counts and offsets are natural numbers kept below one bound. Arithmetic on them
is exact, and a result that reaches the bound is refused instead of wrapped. The length of a buffer
stays below half of that bound, so there are sizes that no buffer has.
-/

set_option autoImplicit false

-- Powers of natural numbers are the core library's, whatever else is in scope.
attribute [local instance (high)] instPowNat

namespace BinaryRecord

/-- The bound that every size, count and offset stays below. -/
def Size.limit : Nat := 2 ^ (64 : Nat)

/-- The bound that the length of every buffer stays below. -/
def Size.bufferLimit : Nat := 2 ^ (63 : Nat)

/-- The number itself where it is a size, and `none` where it reaches the bound. -/
def Size.ofNat? (n : Nat) : Option Nat :=
  if n < Size.limit then some n else none

theorem Size.ofNat?_eq_some_iff {n size : Nat} :
    Size.ofNat? n = some size ↔ n < Size.limit ∧ size = n := by
  by_cases small : n < Size.limit
  · simp [Size.ofNat?, small, eq_comm]
  · simp [Size.ofNat?, small]

theorem Size.ofNat?_eq_none_iff {n : Nat} : Size.ofNat? n = none ↔ Size.limit ≤ n := by
  unfold Size.ofNat?
  split <;> simp_all

end BinaryRecord
