/-! # Bit fields — reading a number of any width bit by bit

    The same readings for every width at once: a bit, a range of bits moved down
    to bit 0, the lowest bits as a two's complement number, and a byte.  A range
    is given by its two ends, both included. -/

namespace Armv4t.BitField

variable {w : Nat}

/-- The bit at position `i`. -/
def bit (x : BitVec w) (i : Nat) : Bool := x.getLsbD i

/-- The number with the bit at position `i` replaced. -/
def put (x : BitVec w) (i : Nat) (b : Bool) : BitVec w :=
  if b then x ||| BitVec.twoPow w i else x &&& ~~~ BitVec.twoPow w i

/-- The bits from `lo` to `hi`, moved down to bit 0. -/
def range (x : BitVec w) (lo hi : Nat) : BitVec w :=
  (x.extractLsb' lo (hi + 1 - lo)).setWidth w

/-- The lowest `n` bits as a two's complement number of the full width. -/
def signed (x : BitVec w) (n : Nat) : BitVec w := (x.setWidth n).signExtend w

/-- The byte that stands `n` bytes above the lowest one. -/
def byte (x : BitVec w) (n : Nat) : BitVec 8 := x.extractLsb' (8 * n) 8

/-- A bit that was put reads back. -/
theorem bit_put_self (x : BitVec w) {i : Nat} (h : i < w) (b : Bool) :
    bit (put x i b) i = b := by
  cases b <;> simp [bit, put, h]

/-- Putting a bit leaves every other bit alone. -/
theorem bit_put_of_ne (x : BitVec w) {i j : Nat} (h : i ≠ j) (b : Bool) :
    bit (put x i b) j = bit x j := by
  cases b
  · by_cases hj : j < w
    · simp [bit, put, hj, Ne.symm h]
    · simp [bit, put, BitVec.getLsbD_of_ge _ _ (Nat.le_of_not_lt hj)]
  · simp [bit, put, h]

end Armv4t.BitField
