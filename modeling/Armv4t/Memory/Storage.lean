import Armv4t.Word

/-! # Storage — a fixed number of bytes

    The number of bytes is part of the type, so that it never changes.  A read
    past the end gives zero and a write past the end changes nothing. -/

namespace Armv4t

/-- A byte array with zeros put at its end. -/
def pushZeros : Nat → ByteArray → ByteArray
  | 0, bs => bs
  | n + 1, bs => pushZeros n (bs.push 0)

/-- Every zero counts. -/
@[simp] theorem size_pushZeros (n : Nat) (bs : ByteArray) :
    (pushZeros n bs).size = bs.size + n := by
  induction n generalizing bs with
  | zero => rfl
  | succ n ih => rw [pushZeros, ih, ByteArray.size_push]; omega

/-- A byte array that is long enough, filled up with zeros. -/
def extendTo (n : Nat) (bs : ByteArray) : ByteArray := pushZeros (n - bs.size) bs

/-- Extending never shortens. -/
@[simp] theorem size_extendTo (n : Nat) (bs : ByteArray) :
    (extendTo n bs).size = max bs.size n := by
  rw [extendTo, size_pushZeros]; omega

/-- What was extended is long enough. -/
theorem le_size_extendTo (n : Nat) (bs : ByteArray) : n ≤ (extendTo n bs).size := by
  rw [size_extendTo]
  exact Nat.le_max_right _ _

/-- A byte array with the bytes from an offset on replaced by data. -/
def overwrite (bs : ByteArray) (offset : Nat) (data : ByteArray) : ByteArray :=
  bs.extract 0 offset ++ data ++ bs.extract (offset + data.size) bs.size

/-- Data inside the array does not change its length. -/
theorem size_overwrite {bs data : ByteArray} {offset : Nat}
    (h : offset + data.size ≤ bs.size) : (overwrite bs offset data).size = bs.size := by
  simp only [overwrite, ByteArray.size_append, ByteArray.size_extract]
  omega

/-- The byte of an array at a place, or zero past its end. -/
@[inline] def byteAt (bs : ByteArray) (i : Nat) : Byte :=
  if h : i < bs.size then bs.get i h else 0

/-- A byte looks into the underlying array. -/
theorem byteAt_eq (bs : ByteArray) (i : Nat) : byteAt bs i = bs.data[i]?.getD 0 := by
  by_cases h : i < bs.size
  · rw [byteAt, dif_pos h, Array.getElem?_eq_getElem h]; rfl
  · rw [byteAt, dif_neg h, Array.getElem?_eq_none (Nat.le_of_not_lt h)]; rfl

/-- A replaced byte reads back, and the others keep their values. -/
theorem byteAt_set (bs : ByteArray) {i : Nat} (h : i < bs.size) (b : Byte) (j : Nat) :
    byteAt (bs.set i b h) j = if i = j then b else byteAt bs j := by
  rw [byteAt_eq, byteAt_eq, ByteArray.data_set, Array.getElem?_set]
  split <;> rfl

/-- Replacing a byte keeps the length. -/
theorem size_set (bs : ByteArray) {i : Nat} (h : i < bs.size) (b : Byte) :
    (bs.set i b h).size = bs.size := by
  simp only [ByteArray.size, ByteArray.data_set, Array.size_set]

/-- An array of a fixed number of bytes. -/
structure Storage (n : Nat) where
  bytes : ByteArray
  size_bytes : bytes.size = n

namespace Storage

variable {n : Nat}

/-- Nothing but zeros. -/
def zero (n : Nat) : Storage n := ⟨pushZeros n .empty, by simp⟩

/-- The byte at a place. -/
@[inline] def get (s : Storage n) (i : Nat) : Byte := byteAt s.bytes i

/-- The storage with the byte at a place replaced. -/
@[inline] def set (s : Storage n) (i : Nat) (b : Byte) : Storage n :=
  if h : i < s.bytes.size then ⟨s.bytes.set i b h, (size_set _ h b).trans s.size_bytes⟩
  else s

/-- The storage with the bytes from an offset on replaced by data that fits. -/
def load (s : Storage n) (offset : Nat) (data : ByteArray) (h : offset + data.size ≤ n) :
    Storage n :=
  ⟨overwrite s.bytes offset data,
    (size_overwrite (Nat.le_trans h (Nat.le_of_eq s.size_bytes.symm))).trans s.size_bytes⟩

/-- A replaced byte reads back, and the others keep their values. -/
theorem get_set (s : Storage n) (i j : Nat) (b : Byte) :
    (s.set i b).get j = if i = j ∧ i < n then b else s.get j := by
  by_cases hi : i < s.bytes.size
  · have hi' : i < n := s.size_bytes ▸ hi
    simp only [get, set, hi, hi', dite_true, and_true]
    exact byteAt_set s.bytes hi b j
  · have hi' : ¬ i < n := s.size_bytes ▸ hi
    simp [get, set, hi, hi']

end Storage

end Armv4t
