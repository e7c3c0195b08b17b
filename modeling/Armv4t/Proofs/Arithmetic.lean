import Armv4t.Alu
import Armv4t.Proofs.Mask

/-! # Arithmetic — the sixteen operations on bits and on integers

    A logical operation works bit by bit.  An arithmetic one works on integers: its result
    is the exact sum or difference, as far as a word can hold it (`AluOp.meaning`).  The
    flags of an arithmetic operation tell how far that is.  With the operands as natural
    numbers, C says that a sum needs one bit more, or that a difference does not fall below
    zero; with the operands in two's complement, V says that the result is out of range.

    The arithmetic unit makes all of them from one addition, that of a complement for a
    difference (`sums_addWithCarry`, `differs_subWithCarry`).  `AluOp.meets_iff` says that
    what it makes is the one result that meets the meaning of the operation. -/

namespace Armv4t

/-! ## Words as integers -/

/-- A bit as a number. -/
def bitValue (b : Bool) : Int := if b then 1 else 0

theorem bit_top (w : Word) : bit w 31 = decide (2 ^ 31 ≤ w.toNat) := by
  have hlt := w.toNat_lt
  rw [bit_eq_decide w (by decide)]
  refine decide_eq_decide.mpr ?_
  show w.toNat / 2 ^ 31 % 2 = 1 ↔ 2 ^ 31 ≤ w.toNat
  omega

/-- A word in two's complement. -/
theorem toInt_word (w : Word) :
    w.toInt32.toInt = if w.toNat < 2 ^ 31 then (w.toNat : Int) else w.toNat - 2 ^ 32 := by
  have hlt := w.toNat_lt
  rw [← Int32.toInt_toBitVec, UInt32.toBitVec_toInt32, BitVec.toInt_eq_toNat_cond]
  show (if 2 * w.toNat < 2 ^ 32 then (w.toNat : Int) else w.toNat - (2 ^ 32 : Nat)) = _
  split <;> split <;> omega

/-- The number that some words stand for, the first one lowest. -/
def wordsValue : List Word → Nat
  | [] => 0
  | w :: ws => w.toNat + 2 ^ 32 * wordsValue ws

/-- The integers that some bits hold in two's complement. -/
def SignedRange (bits : Nat) (z : Int) : Prop := -2 ^ (bits - 1) ≤ z ∧ z < 2 ^ (bits - 1)

instance (bits : Nat) (z : Int) : Decidable (SignedRange bits z) :=
  inferInstanceAs (Decidable (_ ∧ _))

/-! ## The meaning of the operations -/

/-- What an operation does to its operands. -/
inductive Meaning where
  /-- Bit by bit. -/
  | bitwise (f : Bool → Bool → Bool)
  /-- On integers, with a carry that comes in. -/
  | sum (f : Int → Int → Int → Int)
  /-- On integers; a carry that comes in says that nothing was borrowed. -/
  | difference (f : Int → Int → Int → Int)

/-- The meaning of each operation. -/
def AluOp.meaning : AluOp → Meaning
  | and | tst => .bitwise fun a b => a && b
  | eor | teq => .bitwise fun a b => a != b
  | orr => .bitwise fun a b => a || b
  | mov => .bitwise fun _ b => b
  | bic => .bitwise fun a b => a && !b
  | mvn => .bitwise fun _ b => !b
  | add | cmn => .sum fun a b _ => a + b
  | adc => .sum fun a b carry => a + b + carry
  | sub | cmp => .difference fun a b _ => a - b
  | rsb => .difference fun a b _ => b - a
  | sbc => .difference fun a b carry => a - b - (1 - carry)
  | rsc => .difference fun a b carry => b - a - (1 - carry)

/-- A result is an exact integer as far as a word can hold it, once for the operands as
    natural numbers and once in two's complement. -/
structure Holds (natural signed : Int) (c : Prop) (r : AluResult) : Prop where
  value : (r.value.toNat : Int) = natural % 2 ^ 32
  carry : r.flags.c = true ↔ c
  overflow : r.flags.v = true ↔ ¬ (-2 ^ 31 ≤ signed ∧ signed < 2 ^ 31)

/-- A result is what a meaning makes of the operands.  A logical operation takes C from the
    shifter and keeps V. -/
def Meaning.Makes (meaning : Meaning) (a : Word) (b : Shifted) (carry overflow : Bool)
    (r : AluResult) : Prop :=
  match meaning with
  | .bitwise f =>
    (∀ i < 32, r.value.toBitVec.getLsbD i = f (a.toBitVec.getLsbD i) (b.value.toBitVec.getLsbD i))
      ∧ r.flags.c = b.carry ∧ r.flags.v = overflow
  | .sum f =>
    let natural := f a.toNat b.value.toNat (bitValue carry)
    Holds natural (f a.toInt32.toInt b.value.toInt32.toInt (bitValue carry)) (2 ^ 32 ≤ natural) r
  | .difference f =>
    let natural := f a.toNat b.value.toNat (bitValue carry)
    Holds natural (f a.toInt32.toInt b.value.toInt32.toInt (bitValue carry)) (0 ≤ natural) r

/-- A result with its flags is that of an operation. -/
structure AluOp.Meets (op : AluOp) (a : Word) (b : Shifted) (carry overflow : Bool)
    (r : AluResult) : Prop where
  makes : op.meaning.Makes a b carry overflow r
  sign : r.flags.n = true ↔ r.value.toInt32.toInt < 0
  zero : r.flags.z = true ↔ r.value = 0

/-! ## One addition -/

/-- The sum that is made in twice the width. -/
theorem toNat_wideSum (a b : Word) (carry : Bool) :
    (a.toUInt64 + b.toUInt64 + carry.toUInt64).toNat = a.toNat + b.toNat + carry.toNat := by
  have ha := a.toNat_lt
  have hb := b.toNat_lt
  have hcarry : carry.toUInt64.toNat = carry.toNat := by cases carry <;> rfl
  have hle : carry.toNat ≤ 1 := Bool.toNat_le carry
  rw [UInt64.toNat_add, UInt64.toNat_add, UInt32.toNat_toUInt64, UInt32.toNat_toUInt64, hcarry]
  omega

/-- The result of an addition, its carry and its overflow, in natural numbers. -/
theorem addWithCarry_toNat (a b : Word) (carry : Bool) :
    let r := addWithCarry a b carry
    r.value.toNat = (a.toNat + b.toNat + carry.toNat) % 2 ^ 32
      ∧ (r.flags.c = true ↔ 2 ^ 32 ≤ a.toNat + b.toNat + carry.toNat)
      ∧ (r.flags.v = true ↔ ¬ (2 ^ 31 ≤ a.toNat ↔ 2 ^ 31 ≤ r.value.toNat)
        ∧ ¬ (2 ^ 31 ≤ b.toNat ↔ 2 ^ 31 ≤ r.value.toNat)) := by
  intro r
  have hwide := toNat_wideSum a b carry
  refine ⟨?_, ?_, ?_⟩
  · show (a.toUInt64 + b.toUInt64 + carry.toUInt64).toUInt32.toNat = _
    rw [UInt64.toNat_toUInt32, hwide]
  · show decide (a.toUInt64 + b.toUInt64 + carry.toUInt64 > 0xFFFFFFFF) = true ↔ _
    rw [decide_eq_true_iff, gt_iff_lt, UInt64.lt_iff_toNat_lt, hwide]
    exact Nat.succ_le_iff.symm
  · show bit ((a ^^^ r.value) &&& (b ^^^ r.value)) 31 = true ↔ _
    have hbit : bit ((a ^^^ r.value) &&& (b ^^^ r.value)) 31
        = ((bit a 31 != bit r.value 31) && (bit b 31 != bit r.value 31)) := by
      rw [bit_eq_getLsbD _ (by decide), bit_eq_getLsbD a (by decide), bit_eq_getLsbD b (by decide),
        bit_eq_getLsbD r.value (by decide), UInt32.toBitVec_and, UInt32.toBitVec_xor,
        UInt32.toBitVec_xor, BitVec.getLsbD_and, BitVec.getLsbD_xor, BitVec.getLsbD_xor]
    rw [hbit, bit_top, bit_top, bit_top, Bool.and_eq_true, bne_iff_ne, bne_iff_ne, ne_eq, ne_eq,
      decide_eq_decide, decide_eq_decide]

/-- **An addition holds the exact sum**, and its flags say what a word cannot hold. -/
theorem sums_addWithCarry (a b : Word) (carry : Bool) :
    Holds (a.toNat + b.toNat + bitValue carry)
      (a.toInt32.toInt + b.toInt32.toInt + bitValue carry)
      (2 ^ 32 ≤ (a.toNat + b.toNat + bitValue carry : Int)) (addWithCarry a b carry) := by
  obtain ⟨hvalue, hcarry, hoverflow⟩ := addWithCarry_toNat a b carry
  have ha := a.toNat_lt
  have hb := b.toNat_lt
  have hbit : bitValue carry = carry.toNat := by cases carry <;> rfl
  have hle : carry.toNat ≤ 1 := Bool.toNat_le carry
  rw [hbit]
  refine ⟨?_, ?_, ?_⟩
  · rw [hvalue]
    omega
  · rw [hcarry]
    omega
  · -- the operands share a sign and the result has the other one
    rw [hoverflow, hvalue, toInt_word, toInt_word]
    split <;> split <;> omega

/-- **A difference is a sum with the complement.** -/
theorem differs_subWithCarry (a b : Word) (carry : Bool) :
    Holds (a.toNat - b.toNat - (1 - bitValue carry))
      (a.toInt32.toInt - b.toInt32.toInt - (1 - bitValue carry))
      (0 ≤ (a.toNat - b.toNat - (1 - bitValue carry) : Int)) (subWithCarry a b carry) := by
  have hb := b.toNat_lt
  have hnot : (~~~b).toNat = 2 ^ 32 - 1 - b.toNat := UInt32.toNat_not b
  -- the complement is 2^32 - 1 - b as a natural number, and -1 - b in two's complement
  have hnatural : (a.toNat + (~~~b).toNat + bitValue carry : Int)
      = a.toNat - b.toNat - (1 - bitValue carry) + 2 ^ 32 := by
    omega
  have hsigned : a.toInt32.toInt + (~~~b).toInt32.toInt + bitValue carry
      = a.toInt32.toInt - b.toInt32.toInt - (1 - bitValue carry) := by
    rw [toInt_word b, toInt_word (~~~b), hnot]
    split <;> split <;> omega
  obtain ⟨hvalue, hcarry, hoverflow⟩ := sums_addWithCarry a (~~~b) carry
  rw [hnatural] at hvalue hcarry
  rw [hsigned] at hoverflow
  refine ⟨?_, ?_, hoverflow⟩
  · rw [subWithCarry, hvalue]
    exact Int.add_emod_right ..
  · rw [subWithCarry, hcarry]
    omega

/-! ## All operations -/

/-- N is the sign of the result. -/
theorem bit_top_iff (w : Word) : bit w 31 = true ↔ w.toInt32.toInt < 0 := by
  have hlt := w.toNat_lt
  rw [bit_top, decide_eq_true_iff, toInt_word]
  split <;> omega

theorem sums_add (a b : Word) :
    Holds (a.toNat + b.toNat) (a.toInt32.toInt + b.toInt32.toInt)
      (2 ^ 32 ≤ (a.toNat + b.toNat : Int)) (addWithCarry a b false) := by
  have h := sums_addWithCarry a b false
  rw [bitValue, if_neg Bool.false_ne_true] at h
  simpa only [Int.add_zero] using h

theorem differs_sub (a b : Word) :
    Holds (a.toNat - b.toNat) (a.toInt32.toInt - b.toInt32.toInt)
      (0 ≤ (a.toNat - b.toNat : Int)) (subWithCarry a b true) := by
  have h := differs_subWithCarry a b true
  rw [bitValue, if_pos rfl] at h
  simpa only [Int.sub_self, Int.sub_zero] using h

namespace AluOp

/-- N and Z tell of the result, whatever the operation. -/
theorem sign_and_zero_compute (op : AluOp) (a : Word) (b : Shifted) (carry overflow : Bool) :
    let r := op.compute a b carry overflow
    r.flags.n = bit r.value 31 ∧ r.flags.z = (r.value == 0) := by
  cases op <;> exact ⟨rfl, rfl⟩

theorem makes_compute (op : AluOp) (a : Word) (b : Shifted) (carry overflow : Bool) :
    op.meaning.Makes a b carry overflow (op.compute a b carry overflow) := by
  cases op with
  | and | tst =>
      refine ⟨?_, rfl, rfl⟩
      intro i _
      exact BitVec.getLsbD_and
  | eor | teq =>
      refine ⟨?_, rfl, rfl⟩
      intro i _
      exact BitVec.getLsbD_xor
  | orr =>
      refine ⟨?_, rfl, rfl⟩
      intro i _
      exact BitVec.getLsbD_or
  | mov => exact ⟨fun _ _ => rfl, rfl, rfl⟩
  | bic =>
      refine ⟨?_, rfl, rfl⟩
      intro i hi
      show (a &&& ~~~b.value).toBitVec.getLsbD i = _
      rw [UInt32.toBitVec_and, UInt32.toBitVec_not, BitVec.getLsbD_and, BitVec.getLsbD_not,
        decide_eq_true hi, Bool.true_and]
  | mvn =>
      refine ⟨?_, rfl, rfl⟩
      intro i hi
      show (~~~b.value).toBitVec.getLsbD i = _
      rw [UInt32.toBitVec_not, BitVec.getLsbD_not, decide_eq_true hi, Bool.true_and]
  | add | cmn => exact sums_add a b.value
  | adc => exact sums_addWithCarry a b.value carry
  | sub | cmp => exact differs_sub a b.value
  | rsb => exact differs_sub b.value a
  | sbc => exact differs_subWithCarry a b.value carry
  | rsc => exact differs_subWithCarry b.value a carry

/-- **The arithmetic unit meets the meaning of every operation.** -/
theorem compute_meets (op : AluOp) (a : Word) (b : Shifted) (carry overflow : Bool) :
    op.Meets a b carry overflow (op.compute a b carry overflow) := by
  obtain ⟨hn, hz⟩ := op.sign_and_zero_compute a b carry overflow
  refine ⟨op.makes_compute a b carry overflow, ?_, ?_⟩
  · rw [hn, bit_top_iff]
  · rw [hz, beq_iff_eq]

end AluOp

/-! ## The meaning tells the whole result -/

theorem Holds.unique {natural signed : Int} {c : Prop} {r r' : AluResult}
    (h : Holds natural signed c r) (h' : Holds natural signed c r') :
    r.value = r'.value ∧ r.flags.c = r'.flags.c ∧ r.flags.v = r'.flags.v := by
  refine ⟨?_, Bool.eq_iff_iff.mpr (h.carry.trans h'.carry.symm),
    Bool.eq_iff_iff.mpr (h.overflow.trans h'.overflow.symm)⟩
  have hvalue : (r.value.toNat : Int) = r'.value.toNat := h.value.trans h'.value.symm
  exact UInt32.toNat_inj.mp (Int.ofNat_inj.mp hvalue)

theorem Meaning.Makes.unique {meaning : Meaning} {a : Word} {b : Shifted} {carry overflow : Bool}
    {r r' : AluResult} (h : meaning.Makes a b carry overflow r)
    (h' : meaning.Makes a b carry overflow r') :
    r.value = r'.value ∧ r.flags.c = r'.flags.c ∧ r.flags.v = r'.flags.v := by
  cases meaning with
  | bitwise f =>
      obtain ⟨hbits, hc, hv⟩ := h
      obtain ⟨hbits', hc', hv'⟩ := h'
      refine ⟨?_, hc.trans hc'.symm, hv.trans hv'.symm⟩
      refine UInt32.toBitVec_inj.1 (BitVec.eq_of_getLsbD_eq ?_)
      intro i hi
      exact (hbits i hi).trans (hbits' i hi).symm
  | sum f => exact Holds.unique h h'
  | difference f => exact Holds.unique h h'

/-- **There is one result that meets an operation.** -/
theorem AluOp.meets_iff {op : AluOp} {a : Word} {b : Shifted} {carry overflow : Bool}
    {r : AluResult} : op.Meets a b carry overflow r ↔ r = op.compute a b carry overflow := by
  constructor
  · intro h
    have h' := op.compute_meets a b carry overflow
    obtain ⟨hvalue, hc, hv⟩ := h.makes.unique h'.makes
    have hn : r.flags.n = (op.compute a b carry overflow).flags.n := by
      refine Bool.eq_iff_iff.mpr ?_
      rw [h.sign, h'.sign, hvalue]
    have hz : r.flags.z = (op.compute a b carry overflow).flags.z := by
      refine Bool.eq_iff_iff.mpr ?_
      rw [h.zero, h'.zero, hvalue]
    calc r = ⟨r.value, ⟨r.flags.n, r.flags.z, r.flags.c, r.flags.v⟩⟩ := rfl
      _ = op.compute a b carry overflow := by rw [hvalue, hn, hz, hc, hv]
  · rintro rfl
    exact op.compute_meets a b carry overflow

end Armv4t
