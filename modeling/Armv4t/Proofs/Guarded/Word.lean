import Armv4t.Proofs.Fields
import Armv4t.Registers

/-! # Guarded words — operations that have no result out of range

    A bit has to stand inside its word, a shift has to be shorter than it, a sum, a
    difference or a product that is not meant to wrap has to fit, and a number that
    becomes an index has to lie below the size of what it indexes.  Here each of these
    operations is written with what it asks for: out of range there is no result.

    Where an operation is in range it is the plain one, which is what the lemmas say.
    Their side conditions compare literals nearly everywhere, so that `simp` settles
    them; only where a number comes from data does a caller have to argue. -/

namespace Armv4t.Guarded

/-- Goes on only if a condition holds. -/
def require (p : Prop) [Decidable p] : Option Unit := if p then some () else none

/-- A condition that holds stops nothing. -/
@[simp] theorem require_eq {p : Prop} [Decidable p] (h : p) : require p = some () := if_pos h

/-- A choice between two results is a result. -/
@[simp] theorem ite_some {α : Type} {p : Prop} [Decidable p] (a b : α) :
    (if p then some a else some b) = some (if p then a else b) := (apply_ite some p a b).symm

/-! ## Arithmetic -/

/-- A sum of words that fits. -/
def addWord (a b : Word) : Option Word :=
  if a.toNat + b.toNat < 2 ^ 32 then some (a + b) else none

/-- A difference of words that is not negative. -/
def subWord (a b : Word) : Option Word := if b ≤ a then some (a - b) else none

/-- A product of words that fits. -/
def mulWord (a b : Word) : Option Word :=
  if a.toNat * b.toNat < 2 ^ 32 then some (a * b) else none

/-- A sum of 64-bit numbers that fits. -/
def addWide (a b : UInt64) : Option UInt64 :=
  if a.toNat + b.toNat < 2 ^ 64 then some (a + b) else none

/-- A product of 64-bit numbers that fits. -/
def mulWide (a b : UInt64) : Option UInt64 :=
  if a.toNat * b.toNat < 2 ^ 64 then some (a * b) else none

/-- A product of signed 64-bit numbers that fits. -/
def mulSigned (a b : Int64) : Option Int64 :=
  if -2 ^ 63 ≤ a.toInt * b.toInt ∧ a.toInt * b.toInt < 2 ^ 63 then some (a * b) else none

/-- A sum of times that fits. -/
def addTime (a b : Int32) : Option Int32 :=
  if -2 ^ 31 ≤ a.toInt + b.toInt ∧ a.toInt + b.toInt < 2 ^ 31 then some (a + b) else none

/-- A number as an index into something of a size. -/
def index (size : Nat) (n : Word) : Option (Fin size) :=
  if h : n.toNat < size then some ⟨n.toNat, h⟩ else none

/-- In range the sum is the wrapping one. -/
theorem addWord_eq {a b : Word} (h : a.toNat + b.toNat < 2 ^ 32) :
    addWord a b = some (a + b) := if_pos h

/-- And so is a difference that is not negative. -/
theorem subWord_eq {a b : Word} (h : b ≤ a) : subWord a b = some (a - b) := if_pos h

theorem mulWord_eq {a b : Word} (h : a.toNat * b.toNat < 2 ^ 32) :
    mulWord a b = some (a * b) := if_pos h

theorem addWide_eq {a b : UInt64} (h : a.toNat + b.toNat < 2 ^ 64) :
    addWide a b = some (a + b) := if_pos h

theorem addTime_eq {a b : Int32} (h : -2 ^ 31 ≤ a.toInt + b.toInt)
    (h' : a.toInt + b.toInt < 2 ^ 31) : addTime a b = some (a + b) := if_pos ⟨h, h'⟩

/-- A number below the size is an index. -/
theorem index_eq {size : Nat} {n : Word} (h : n.toNat < size) :
    index size n = some ⟨n.toNat, h⟩ := dif_pos h

/-- Two words have a product of 64 bits. -/
theorem mulWide_eq (a b : Word) :
    mulWide a.toUInt64 b.toUInt64 = some (a.toUInt64 * b.toUInt64) := by
  have h : a.toNat * b.toNat ≤ (2 ^ 32 - 1) * (2 ^ 32 - 1) :=
    Nat.mul_le_mul (Nat.le_pred_of_lt a.toNat_lt) (Nat.le_pred_of_lt b.toNat_lt)
  refine if_pos ?_
  rw [UInt32.toNat_toUInt64, UInt32.toNat_toUInt64]
  omega

/-- And so have two signed ones. -/
theorem mulSigned_eq (a b : Int32) :
    mulSigned a.toInt64 b.toInt64 = some (a.toInt64 * b.toInt64) := by
  have ha : a.toInt.natAbs ≤ 2 ^ 31 := by
    have := a.le_toInt
    have := a.toInt_lt
    omega
  have hb : b.toInt.natAbs ≤ 2 ^ 31 := by
    have := b.le_toInt
    have := b.toInt_lt
    omega
  have h : (a.toInt * b.toInt).natAbs ≤ 2 ^ 31 * 2 ^ 31 := by
    rw [Int.natAbs_mul]
    exact Nat.mul_le_mul ha hb
  refine if_pos ?_
  rw [Int32.toInt_toInt64, Int32.toInt_toInt64]
  omega

/-! ## Shifts -/

/-- A word shifted left by less than its width. -/
def shiftLeft (w n : Word) : Option Word := if n < 32 then some (w <<< n) else none

/-- A number of some width shifted right by less than its width. -/
def shiftRight (width w n : Word) : Option Word := if n < width then some (w >>> n) else none

/-- A word shifted right by less than its width, with copies of its sign. -/
def shiftSigned (w n : Word) : Option Word :=
  if n < 32 then some (w.toInt32 >>> n.toInt32).toUInt32 else none

/-- A one shifted left by less than the width of its number. -/
def one (width n : Word) : Option Word := if n < width then some (1 <<< n) else none

/-- A 64-bit number shifted left by less than its width. -/
def shiftLeftWide (w n : UInt64) : Option UInt64 := if n < 64 then some (w <<< n) else none

/-- A 64-bit number shifted right by less than its width. -/
def shiftRightWide (w n : UInt64) : Option UInt64 := if n < 64 then some (w >>> n) else none

variable {width w n : Word}

/-- A distance below the width is taken as it is, and so in the shifts that follow. -/
@[simp] theorem shiftLeft_eq (h : n < 32) : shiftLeft w n = some (w <<< n) := if_pos h

@[simp] theorem shiftRight_eq (h : n < width) : shiftRight width w n = some (w >>> n) := if_pos h

@[simp] theorem shiftSigned_eq (h : n < 32) :
    shiftSigned w n = some (w.toInt32 >>> n.toInt32).toUInt32 := if_pos h

@[simp] theorem one_eq (h : n < width) : one width n = some (1 <<< n) := if_pos h

@[simp] theorem shiftLeftWide_eq {w n : UInt64} (h : n < 64) :
    shiftLeftWide w n = some (w <<< n) := if_pos h

@[simp] theorem shiftRightWide_eq {w n : UInt64} (h : n < 64) :
    shiftRightWide w n = some (w >>> n) := if_pos h

/-! ## Bits and fields -/

/-- The bit of a number of some width. -/
def getBit (width w i : Word) : Option Bool := do
  require (i < width)
  some ((← shiftRight width w i) &&& 1 == 1)

/-- The bit of a 64-bit number. -/
def getBitWide (w i : UInt64) : Option Bool := do
  require (i < 64)
  some ((← shiftRightWide w i) &&& 1 == 1)

/-- A number of some width with a bit replaced. -/
def setBit (width w i : Word) (b : Bool) : Option Word := do
  require (i < width)
  let mask ← one width i
  some (if b then w ||| mask else w &&& ~~~mask)

/-- The bits of a number of some width from `lo` to `hi`, moved down to bit 0. -/
def getBits (width w lo hi : Word) : Option Word := do
  let length ← addWord (← subWord hi lo) 1
  require ((← addWord lo length) ≤ width)
  let moved ← shiftRight width w lo
  if length = width then some moved
  else do
    let mask ← subWord (← one width length) 1
    some (moved &&& mask)

/-- The lowest `n` bits of a word as a two's complement number. -/
def signExtended (w n : Word) : Option Word := do
  require (0 < n ∧ n ≤ 32)
  let unused ← subWord 32 n
  shiftSigned (← shiftLeft w unused) unused

/-- A bit inside the number is the bit of the word that holds it. -/
@[simp] theorem getBit_eq {i : Word} (h : i < width) : getBit width w i = some (bit w i) := by
  simp [getBit, h, bit]

/-- A number of sixteen bits has no bit 16. -/
example : getBit 16 0x1FFFF 16 = none := by decide

/-- The same of a 64-bit number. -/
@[simp] theorem getBitWide_eq {w i : UInt64} (h : i < 64) :
    getBitWide w i = some ((w >>> i) &&& 1 == 1) := by
  simp [getBitWide, h]

/-- To replace a bit inside the number is to replace it in the word. -/
@[simp] theorem setBit_eq {i : Word} (h : i < width) (b : Bool) :
    setBit width w i b = some (putBit w i b) := by
  simp [setBit, h, putBit]

/-- A range that ends inside the number, and is not all of it, is a field. -/
@[simp] theorem getBits_eq {lo hi : Word} (hlo : lo ≤ hi) (hhi : hi < width) (hw : width ≤ 32)
    (hlength : hi - lo + 1 < width) :
    getBits width w lo hi = some (field w lo (hi - lo + 1)) := by
  have hlo' : lo.toNat ≤ hi.toNat := hlo
  have hhi' : hi.toNat < width.toNat := hhi
  have hw' : width.toNat ≤ 32 := hw
  have hsub : (hi - lo).toNat = hi.toNat - lo.toNat := UInt32.toNat_sub_of_le _ _ hlo
  have hadd : (hi - lo + 1).toNat = hi.toNat - lo.toNat + 1 := by
    rw [UInt32.toNat_add, hsub, UInt32.toNat_one]
    omega
  have hend : lo + (hi - lo + 1) ≤ width := by
    rw [UInt32.le_iff_toNat_le, UInt32.toNat_add, hadd]
    omega
  have hone : 1 ≤ (1 : Word) <<< (hi - lo + 1) := by
    have hlt : (hi - lo + 1).toNat < 32 := Nat.lt_of_lt_of_le hlength hw'
    rw [UInt32.le_iff_toNat_le, UInt32.toNat_shiftLeft, Nat.mod_eq_of_lt hlt,
      UInt32.toNat_one, Nat.one_shiftLeft,
      Nat.mod_eq_of_lt (Nat.pow_lt_pow_right (by decide) hlt)]
    exact Nat.two_pow_pos _
  have hstart : lo < width := UInt32.lt_of_le_of_lt hlo hhi
  have hne : hi - lo + 1 ≠ width := UInt32.ne_of_lt hlength
  have hlength' : addWord (hi - lo) 1 = some (hi - lo + 1) := by
    refine addWord_eq ?_
    rw [hsub, UInt32.toNat_one]
    omega
  have hend' : addWord lo (hi - lo + 1) = some (lo + (hi - lo + 1)) := by
    refine addWord_eq ?_
    rw [hadd]
    omega
  simp [getBits, subWord_eq hlo, hlength', hend', hend, hstart, hne, hlength, subWord_eq hone,
    field]

/-- A width from one to thirty-two leaves a distance that the shifts can go. -/
@[simp] theorem signExtended_eq (h : 0 < n) (h' : n ≤ 32) :
    signExtended w n = some (signExtend w n) := by
  have hlt : 32 - n < 32 := by
    have hpos : 0 < n.toNat := h
    rw [UInt32.lt_iff_toNat_lt, UInt32.toNat_sub_of_le _ _ h']
    show 32 - n.toNat < 32
    omega
  simp [signExtended, h, h', subWord_eq h', hlt, signExtend]

/-! ## Register numbers -/

/-- The four bits of a word from `lo` up, as the number of a register. -/
def reg (w lo : Word) : Option Reg := do index 16 (← getBits 32 w lo (lo + 3))

/-- The three bits of a halfword from `lo` up, as the number of a low register. -/
def lowReg (w lo : Word) : Option LowReg := do index 8 (← getBits 16 w lo (lo + 2))

/-- A number below the size stays as it is where it is read as one. -/
theorem index_eq_ofNat {size : Nat} [NeZero size] {n : Word} (h : n.toNat < size) :
    index size n = some (Fin.ofNat size n.toNat) := by
  rw [index_eq h]
  exact congrArg some (Fin.ext (Nat.mod_eq_of_lt h).symm)

/-- A field of some bits more than one, none of them above the number. -/
theorem getBits_from {lo k : Word} (hhi : lo.toNat + k.toNat < width.toNat)
    (hw : width.toNat ≤ 32) (hk : k + 1 < width) :
    getBits width w lo (lo + k) = some (field w lo (k + 1)) := by
  have hsum : (lo + k).toNat = lo.toNat + k.toNat := by
    rw [UInt32.toNat_add]
    omega
  have hback : lo + k - lo = k := by
    rw [UInt32.add_comm, UInt32.add_sub_cancel]
  rw [getBits_eq (UInt32.le_iff_toNat_le.mpr (by omega))
    (UInt32.lt_iff_toNat_lt.mpr (by omega)) (UInt32.le_iff_toNat_le.mpr hw) (by rwa [hback]),
    hback]

/-- Four bits are a number below sixteen. -/
@[simp] theorem index_nibble (w lo : Word) : index 16 (field w lo 4) = some (nibble w lo) :=
  index_eq_ofNat (Nat.lt_of_le_of_lt (field_le w lo 4) (by decide))

/-- Three bits are one below eight. -/
@[simp] theorem index_octal (w lo : Word) : index 8 (field w lo 3) = some (octal w lo) :=
  index_eq_ofNat (Nat.lt_of_le_of_lt (field_le w lo 3) (by decide))

/-- Five bits are one below thirty-two. -/
@[simp] theorem index_quint (w lo : Word) : index 32 (field w lo 5) = some (quint w lo) :=
  index_eq_ofNat (Nat.lt_of_le_of_lt (field_le w lo 5) (by decide))

/-- A register number may start anywhere up to bit 28. -/
@[simp] theorem reg_eq {lo : Word} (h : lo ≤ 28) : reg w lo = some (nibble w lo) := by
  have hlo : lo.toNat ≤ 28 := h
  have hbits : getBits 32 w lo (lo + 3) = some (field w lo 4) :=
    getBits_from (show lo.toNat + 3 < 32 by omega) (Nat.le_refl 32) (by decide)
  rw [reg, hbits]
  exact index_nibble w lo

/-- A low register number may start anywhere up to bit 13 of its halfword. -/
@[simp] theorem lowReg_eq {lo : Word} (h : lo ≤ 13) : lowReg w lo = some (octal w lo) := by
  have hlo : lo.toNat ≤ 13 := h
  have hbits : getBits 16 w lo (lo + 2) = some (field w lo 3) :=
    getBits_from (show lo.toNat + 2 < 16 by omega) (by decide) (by decide)
  rw [lowReg, hbits]
  exact index_octal w lo

end Armv4t.Guarded
