import Armv4t.Proofs.Fields
import Armv4t.Shifter
import Armv4t.Transfer

/-! # Parts — a word put together again from what was read of it

    A part of a word is the word under a mask: some of its bits, and zeros elsewhere.
    Parts under several masks make the part under their union.  Whatever a decoder reads
    from a word gives a part back, when it is written where it was read: a bit, a field,
    a register number, a scaled or a signed offset. -/

namespace Armv4t

/-- A word is the part of another one under a mask. -/
def IsPart (mask w x : Word) : Prop := x = w &&& mask

/-- One bit, in its place. -/
def flag (b : Bool) (i : Word) : Word := if b then 1 <<< i else 0

/-- A register number, in its place. -/
def Reg.code (r : Reg) (lo : Word) : Word := r.val.toUInt32 <<< lo

/-- A two-bit code. -/
def ShiftKind.code : ShiftKind → Word
  | lsl => 0
  | lsr => 1
  | asr => 2
  | ror => 3

namespace IsPart

variable {w x y m n m' x' lo i : Word}

/-- Two parts make one. -/
theorem or (h : IsPart m w x) (h' : IsPart n w y) : IsPart (m ||| n) w (x ||| y) := by
  show x ||| y = w &&& (m ||| n)
  rw [show x = w &&& m from h, show y = w &&& n from h', UInt32.and_comm w (m ||| n), or_and_mask,
    UInt32.and_comm m, UInt32.and_comm n]

/-- A part that is zero leaves the others as they are. -/
theorem blank (h : IsPart m w 0) (h' : IsPart n w y) : IsPart (m ||| n) w y := by
  have hor := h.or h'
  rw [UInt32.zero_or] at hor
  exact hor

/-- The same part, written in another way. -/
theorem of_eq (h : IsPart m w x) (hm : m = m') (hx : x = x') : IsPart m' w x' := by
  rw [← hm, ← hx]
  exact h

/-- A field, put back where it was. -/
theorem ofField (w lo n : Word) : IsPart (fieldMask lo n) w (field w lo n <<< lo) :=
  shiftLeft_and_shiftRight w _ lo

/-- A smaller part. -/
theorem restrict (h : IsPart m w x) (n : Word) : IsPart (m &&& n) w (x &&& n) := by
  show x &&& n = w &&& (m &&& n)
  rw [show x = w &&& m from h, UInt32.and_assoc]

/-- The lowest field, which needs no moving. -/
theorem ofLowest (w n : Word) : IsPart (fieldMask 0 n) w (field w 0 n) :=
  (ofField w 0 n).of_eq rfl (UInt32.shiftLeft_zero ..)

/-- A field that is known. -/
theorem fixed {v : Word} (h : field w lo n = v) : IsPart (fieldMask lo n) w (v <<< lo) := by
  rw [← h]
  exact ofField w lo n

/-- A bit is a field of one. -/
theorem ofBit (w i : Word) : IsPart (fieldMask i 1) w (flag (bit w i) i) := by
  have hfield := ofField w i 1
  rw [field_one] at hfield
  cases hb : bit w i with
  | true =>
      rw [hb] at hfield
      exact hfield
  | false =>
      rw [hb] at hfield
      exact hfield.of_eq rfl (UInt32.zero_shiftLeft ..)

/-- A bit that is known. -/
theorem known {b : Bool} (h : bit w i = b) : IsPart (fieldMask i 1) w (flag b i) := by
  rw [← h]
  exact ofBit w i

/-! ## What decoders read -/

/-- A number below some bound that was read from a field. -/
theorem ofNumber {k : Nat} [NeZero k] {lo n : Word} (hk : ((1 <<< n) - 1 : Word).toNat < k) :
    IsPart (fieldMask lo n) w ((Fin.ofNat k (field w lo n).toNat).val.toUInt32 <<< lo) := by
  have hlt : (field w lo n).toNat < k :=
    Nat.lt_of_le_of_lt (UInt32.le_iff_toNat_le.mp (field_le w lo n)) hk
  have hval : (Fin.ofNat k (field w lo n).toNat).val.toUInt32 = field w lo n := by
    rw [Fin.val_ofNat, Nat.mod_eq_of_lt hlt]
    exact UInt32.ofNat_toNat
  rw [hval]
  exact ofField w lo n

theorem ofReg (w lo : Word) : IsPart (fieldMask lo 4) w (Reg.code (nibble w lo) lo) :=
  ofNumber (by decide)

theorem ofQuint (w lo : Word) : IsPart (fieldMask lo 5) w ((quint w lo).val.toUInt32 <<< lo) :=
  ofNumber (by decide)

/-- A two-bit number is one of four. -/
theorem two_bits {n : Word} (h : n ≤ 3) : n = 0 ∨ n = 1 ∨ n = 2 ∨ n = 3 := by
  have hn : n.toNat ≤ 3 := UInt32.le_iff_toNat_le.mp h
  simp only [← UInt32.toNat_inj]
  show n.toNat = 0 ∨ n.toNat = 1 ∨ n.toNat = 2 ∨ n.toNat = 3
  omega

theorem ofShiftKind (w lo : Word) :
    IsPart (fieldMask lo 2) w ((ShiftKind.ofCode (field w lo 2)).code <<< lo) := by
  have hcode : (ShiftKind.ofCode (field w lo 2)).code = field w lo 2 := by
    rcases two_bits (field_le w lo 2) with h | h | h | h <;> rw [h] <;> rfl
  rw [hcode]
  exact ofField w lo 2

/-- The lowest byte of a word. -/
theorem ofByte (w : Word) : IsPart 0xFF w w.toUInt8.toUInt32 := by
  show w.toUInt8.toUInt32 = w &&& 0xFF
  rw [← UInt32.toNat_inj, UInt8.toNat_toUInt32, UInt32.toNat_toUInt8, UInt32.toNat_and]
  exact (Nat.and_two_pow_sub_one_eq_mod w.toNat 8).symm

/-- The lower half of a word. -/
theorem ofHalf (w : Word) : IsPart 0xFFFF w w.toUInt16.toUInt32 := by
  show w.toUInt16.toUInt32 = w &&& 0xFFFF
  rw [← UInt32.toNat_inj, UInt16.toNat_toUInt32, UInt32.toNat_toUInt16, UInt32.toNat_and]
  exact (Nat.and_two_pow_sub_one_eq_mod w.toNat 16).symm

theorem ofLoadBit (w i : Word) :
    IsPart (fieldMask i 1) w (flag (TransferKind.ofBit (bit w i) == .load) i) := by
  have hcode (b : Bool) : (TransferKind.ofBit b == .load) = b := by
    cases b <;> rfl
  rw [hcode]
  exact ofBit w i

theorem ofByteBit (w i : Word) :
    IsPart (fieldMask i 1) w (flag (Quantity.ofBit (bit w i) == .byte) i) := by
  have hcode (b : Bool) : (Quantity.ofBit b == .byte) = b := by
    cases b <;> rfl
  rw [hcode]
  exact ofBit w i

/-- A field that was scaled, scaled back. -/
theorem scaled (w : Word) {lo n s : Word} (hlo : lo < 32) (hn : n < 32)
    (hs : n.toNat + s.toNat < 32) : (field w lo n <<< s) >>> s = field w lo n := by
  have hlt : (field w lo n).toNat < 2 ^ n.toNat := by
    rw [toNat_field w hlo hn]
    exact Nat.mod_lt _ (Nat.two_pow_pos _)
  have hs' : s.toNat % 32 = s.toNat := Nat.mod_eq_of_lt (by omega)
  have hfit : (field w lo n).toNat * 2 ^ s.toNat < 2 ^ 32 := by
    calc (field w lo n).toNat * 2 ^ s.toNat
        < 2 ^ n.toNat * 2 ^ s.toNat := Nat.mul_lt_mul_of_pos_right hlt (Nat.two_pow_pos _)
      _ = 2 ^ (n.toNat + s.toNat) := (Nat.pow_add ..).symm
      _ ≤ 2 ^ 32 := Nat.pow_le_pow_right (by decide) (Nat.le_of_lt hs)
  rw [← UInt32.toNat_inj, UInt32.toNat_shiftRight, UInt32.toNat_shiftLeft, hs', Nat.shiftLeft_eq,
    Nat.mod_eq_of_lt hfit, Nat.shiftRight_eq_div_pow]
  exact Nat.mul_div_cancel _ (Nat.two_pow_pos _)

/-- Sign extension on the level of bits: up to the top, and back with the sign. -/
theorem toBitVec_signExtend (x : Word) {k : Word} (hk : 0 < k.toNat ∧ k.toNat ≤ 32) :
    (signExtend x k).toBitVec =
      (x.toBitVec <<< (32 - k.toNat)).sshiftRight (32 - k.toNat) := by
  have hd : (32 - k).toNat = 32 - k.toNat :=
    UInt32.toNat_sub_of_le _ _ (UInt32.le_iff_toNat_le.mpr hk.2)
  have hlt : (32 - k).toNat < 32 := by omega
  have hsmod : ∀ d : Fin 32, (BitVec.ofNat 32 d.val).smod 32 = BitVec.ofNat 32 d.val := by
    decide +kernel
  have hright : (32 - k).toBitVec.smod 32 = (32 - k).toBitVec := by
    have h := hsmod ⟨(32 - k).toNat, hlt⟩
    rw [show BitVec.ofNat 32 (32 - k).toNat = (32 - k).toBitVec from BitVec.ofNat_toNat ..] at h
    exact h
  have hleft : (32 - k).toBitVec % 32 = (32 - k).toBitVec :=
    BitVec.eq_of_toNat_eq ((BitVec.toNat_umod ..).trans (Nat.mod_eq_of_lt hlt))
  rw [signExtend, Int32.toBitVec_toUInt32, Int32.toBitVec_shiftRight, UInt32.toBitVec_toInt32,
    UInt32.toBitVec_toInt32, UInt32.toBitVec_shiftLeft, hright, hleft, BitVec.sshiftRight_eq',
    BitVec.shiftLeft_eq', UInt32.toNat_toBitVec, hd]

/-- Sign extension keeps the bits that it extends. -/
theorem signExtend_and (x : Word) {k m : Word} (hk : 0 < k.toNat ∧ k.toNat ≤ 32)
    (hm : m.toNat < 2 ^ k.toNat) : signExtend x k &&& m = x &&& m := by
  refine (and_mask_eq_iff _ _ _).mpr ?_
  intro i hi
  have hik : i.val < k.toNat := by
    refine Nat.lt_of_not_le ?_
    intro hki
    have hzero : m.toNat.testBit i.val = false :=
      Nat.testBit_lt_two_pow (Nat.lt_of_lt_of_le hm (Nat.pow_le_pow_right (by decide) hki))
    exact Bool.noConfusion (hzero.symm.trans hi)
  have htop : 32 - k.toNat + i.val < 32 := by omega
  have hback : 32 - k.toNat + i.val - (32 - k.toNat) = i.val := by omega
  rw [toBitVec_signExtend x hk, BitVec.getLsbD_sshiftRight, if_pos htop, BitVec.getLsbD_shiftLeft,
    hback, decide_eq_true htop, decide_eq_false (Nat.not_lt.mpr (Nat.le_add_right ..)),
    decide_eq_false (Nat.not_le.mpr i.isLt)]
  rfl

/-- The offset of a branch is a field, scaled and signed; scaled back it shows the field. -/
theorem ofSigned (w : Word) {n s k m : Word} (hk : 0 < k.toNat ∧ k.toNat ≤ 32)
    (hn : n.toNat + s.toNat < 32) (hm : (1 <<< n) - 1 = m) (hlt : (m <<< s).toNat < 2 ^ k.toNat)
    (hback : m <<< s >>> s = m) :
    IsPart m w ((signExtend (field w 0 n <<< s) k >>> s) &&& m) := by
  have hn' : n < 32 := Nat.lt_of_le_of_lt (Nat.le_add_right ..) hn
  show _ = w &&& m
  calc (signExtend (field w 0 n <<< s) k >>> s) &&& m
      = (signExtend (field w 0 n <<< s) k &&& (m <<< s)) >>> s := by
        rw [UInt32.shiftRight_and, hback]
    _ = ((field w 0 n <<< s) &&& (m <<< s)) >>> s := by
        rw [signExtend_and _ hk hlt]
    _ = field w 0 n &&& m := by
        rw [UInt32.shiftRight_and, hback, scaled w (by decide) hn' hn]
    _ = w &&& m := by
        rw [field, hm, UInt32.and_assoc, UInt32.and_self, UInt32.shiftRight_zero]

end IsPart

/-- Sign extension copies the highest of the bits that are extended. -/
theorem signExtend_eq (x : Word) {k : Word} (hk : 0 < k.toNat ∧ k.toNat ≤ 32) :
    (signExtend x k).toBitVec = (x.toBitVec.setWidth k.toNat).signExtend 32 := by
  refine BitVec.eq_of_getLsbD_eq fun i hi => ?_
  have htop : ¬ 32 ≤ i := Nat.not_le.mpr hi
  rw [IsPart.toBitVec_signExtend x hk, BitVec.getLsbD_sshiftRight, BitVec.getLsbD_signExtend,
    decide_eq_false htop, decide_eq_true hi, Bool.not_false, Bool.true_and, Bool.true_and]
  by_cases hik : i < k.toNat
  · have hin : 32 - k.toNat + i < 32 := by omega
    have hback : 32 - k.toNat + i - (32 - k.toNat) = i := by omega
    rw [if_pos hik, if_pos hin, BitVec.getLsbD_shiftLeft, BitVec.getLsbD_setWidth, hback,
      decide_eq_true hin, decide_eq_true hik, decide_eq_false (by omega)]
    rfl
  · have hout : ¬ 32 - k.toNat + i < 32 := by omega
    have hlast : ¬ 32 - 1 < 32 - k.toNat := by omega
    have hback : 32 - 1 - (32 - k.toNat) = k.toNat - 1 := by omega
    rw [if_neg hik, if_neg hout, BitVec.msb_eq_getLsbD_last, BitVec.getLsbD_shiftLeft,
      BitVec.msb_setWidth, hback, decide_eq_true hk.1, decide_eq_false hlast]
    rfl

end Armv4t
