import Armv4t.Proofs.Mask

/-! # Fields — words that are the same field by field

    A decoder picks a word apart into bits and fields.  Each of them pins the word down
    under a mask: two words with the same field agree on the mask of the field, and so
    on the union of the masks of all their fields.  The other way round, words that
    agree on a mask have every field in common that the mask covers.

    A fixed pattern is a word like any other, so that the same rules compare a word
    with a pattern: one field at a time, or all of it at once. -/

namespace Armv4t

/-- Two words have the same bits under a mask. -/
def AgreeOn (mask a b : Word) : Prop := a &&& mask = b &&& mask

/-- The mask of the `n` bits from position `lo` up. -/
def fieldMask (lo n : Word) : Word := ((1 <<< n) - 1) <<< lo

/-- A field is a number of so many bits. -/
theorem field_le (w lo n : Word) : field w lo n ≤ (1 <<< n) - 1 := by
  rw [UInt32.le_iff_toNat_le, field, UInt32.toNat_and]
  exact Nat.and_le_right

/-- A field as a part of the number. -/
theorem toNat_field (w : Word) {lo n : Word} (hlo : lo < 32) (hn : n < 32) :
    (field w lo n).toNat = w.toNat / 2 ^ lo.toNat % 2 ^ n.toNat := by
  have hlo' : lo.toNat < 32 := hlo
  have hn' : n.toNat < 32 := hn
  have hpow : 2 ^ n.toNat < 2 ^ 32 := Nat.pow_lt_pow_right (by decide) hn'
  have hshift : ((1 : Word) <<< n).toNat = 2 ^ n.toNat := by
    rw [UInt32.toNat_shiftLeft, Nat.mod_eq_of_lt hn', Nat.shiftLeft_eq]
    exact (Nat.mod_eq_of_lt (by rwa [UInt32.toNat_one, Nat.one_mul])).trans (Nat.one_mul _)
  have hle : 1 ≤ (1 : Word) <<< n := by
    rw [UInt32.le_iff_toNat_le, hshift]
    exact Nat.two_pow_pos _
  rw [field, UInt32.toNat_and, UInt32.toNat_sub_of_le _ _ hle, hshift, UInt32.toNat_shiftRight,
    Nat.mod_eq_of_lt hlo', Nat.shiftRight_eq_div_pow]
  exact Nat.and_two_pow_sub_one_eq_mod _ _

/-- A bit is a field of one. -/
theorem field_one (w i : Word) : field w i 1 = if bit w i then 1 else 0 := by
  have hle : (field w i 1).toNat ≤ 1 := UInt32.le_iff_toNat_le.mp (field_le w i 1)
  by_cases h1 : field w i 1 = 1
  · rw [if_pos (show bit w i = true from beq_iff_eq.mpr h1)]
    exact h1
  · rw [if_neg (mt (fun hb : bit w i = true => beq_iff_eq.mp hb) h1), ← UInt32.toNat_inj]
    have hne : (field w i 1).toNat ≠ 1 := mt (UInt32.toNat_inj (b := 1)).mp h1
    show (field w i 1).toNat = 0
    omega

/-- A field, put back where it was. -/
theorem shiftLeft_and_shiftRight (w m lo : Word) :
    ((w >>> lo) &&& m) <<< lo = w &&& (m <<< lo) := by
  apply UInt32.toBitVec_inj.1
  refine BitVec.eq_of_getLsbD_eq ?_
  intro i hi
  simp only [UInt32.toBitVec_and, UInt32.toBitVec_shiftLeft, UInt32.toBitVec_shiftRight,
    BitVec.shiftLeft_eq', BitVec.ushiftRight_eq', BitVec.getLsbD_and, BitVec.getLsbD_shiftLeft,
    BitVec.getLsbD_ushiftRight, hi, decide_true, Bool.true_and]
  generalize (lo.toBitVec % 32).toNat = d
  by_cases hd : i < d
  · simp only [hd, decide_true, Bool.not_true, Bool.false_and, Bool.and_false]
  · -- a bit that the field holds comes from its own place
    have hback : d + (i - d) = i := by omega
    simp only [hd, decide_false, Bool.not_false, Bool.true_and, hback]

namespace AgreeOn

variable {a b c m n mask lo p i : Word}

/-- Words that agree on two masks agree on their union. -/
theorem union (h : AgreeOn m a b) (h' : AgreeOn n a b) : AgreeOn (m ||| n) a b := by
  have split (w : Word) : w &&& (m ||| n) = (w &&& m) ||| (w &&& n) := by
    rw [UInt32.and_comm, or_and_mask, UInt32.and_comm m, UInt32.and_comm n]
  show a &&& (m ||| n) = b &&& (m ||| n)
  rw [split, split, show a &&& m = b &&& m from h, show a &&& n = b &&& n from h']

/-- Words that agree on all bits are the same. -/
theorem eq (h : AgreeOn 0xFFFFFFFF a b) : a = b := by
  have hall (w : Word) : w &&& 0xFFFFFFFF = w := by
    rw [show (0xFFFFFFFF : Word) = -1 from rfl, UInt32.and_neg_one]
  rw [← hall a, ← hall b]
  exact h

/-! ## From fields to masks -/

/-- Words with the same field agree on its mask. -/
theorem of_field (h : field a lo n = field b lo n) : AgreeOn (fieldMask lo n) a b := by
  show a &&& _ <<< lo = b &&& _ <<< lo
  rw [← shiftLeft_and_shiftRight, ← shiftLeft_and_shiftRight]
  exact congrArg (· <<< lo) h

/-- And so do words with the same bit. -/
theorem of_bit (h : bit a i = bit b i) : AgreeOn (fieldMask i 1) a b := by
  refine of_field ?_
  rw [field_one, field_one, h]

/-! ## From masks to fields -/

/-- Words that agree on a mask have every field that it covers. -/
theorem field_eq (h : AgreeOn mask a b) (hm : field mask p n = (1 <<< n) - 1) :
    field a p n = field b p n := by
  have hpart (w : Word) : field w p n = ((w &&& mask) >>> p) &&& ((1 <<< n) - 1) := by
    rw [UInt32.shiftRight_and, UInt32.and_assoc, show mask >>> p &&& _ = _ from hm]
    rfl
  rw [hpart a, hpart b, show a &&& mask = b &&& mask from h]

/-- And every bit. -/
theorem bit_eq (h : AgreeOn mask a b) (hm : field mask i 1 = 1) : bit a i = bit b i := by
  have hbit : field a i 1 = field b i 1 := h.field_eq hm
  exact congrArg (· == 1) hbit

/-! ## Words and patterns -/

/-- A word with a field of a pattern agrees with the pattern there. -/
theorem of_pattern (pattern : Word) {v : Word} (h : field a lo n = v)
    (hp : field pattern lo n = v) : AgreeOn (fieldMask lo n) a pattern :=
  of_field (h.trans hp.symm)

theorem of_bit_pattern (pattern : Word) {v : Bool} (h : bit a i = v) (hp : bit pattern i = v) :
    AgreeOn (fieldMask i 1) a pattern :=
  of_bit (h.trans hp.symm)

end AgreeOn

end Armv4t
