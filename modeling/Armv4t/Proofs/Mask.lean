import Mathlib.Algebra.Ring.Nat
import Mathlib.Algebra.Ring.Int.Defs
import Armv4t.Word

/-! # Masks — words that agree outside some bits

    What an operation leaves alone in a word is said by a mask: two words agree
    off the mask when every bit outside it is the same.  The relation is an
    equivalence, it grows with the mask, and whatever is read through bits that
    the mask spares reads the same in both words. -/

namespace Armv4t

/-- Two words have the same bits outside a mask. -/
def AgreeOff (mask a b : Word) : Prop := a &&& ~~~mask = b &&& ~~~mask

instance (mask a b : Word) : Decidable (AgreeOff mask a b) :=
  inferInstanceAs (Decidable (_ = _))

/-- The bits of a word that a mask takes out of a union. -/
theorem or_and_mask (a b mask : Word) :
    (a ||| b) &&& mask = (a &&& mask) ||| (b &&& mask) := by
  apply UInt32.toBitVec_inj.1
  ext i
  simp only [UInt32.toBitVec_and, UInt32.toBitVec_or, BitVec.getElem_and, BitVec.getElem_or]
  exact Bool.and_or_distrib_right ..

namespace AgreeOff

variable {mask wide a b c : Word}

theorem refl (mask a : Word) : AgreeOff mask a a := rfl

theorem symm (h : AgreeOff mask a b) : AgreeOff mask b a := Eq.symm h

theorem trans (h₁ : AgreeOff mask a b) (h₂ : AgreeOff mask b c) : AgreeOff mask a c :=
  Eq.trans h₁ h₂

/-- Bits that the mask spares read the same in both words. -/
theorem and_eq (h : AgreeOff mask a b) {m : Word} (hm : ~~~mask &&& m = m) :
    a &&& m = b &&& m := by
  have split (w : Word) : w &&& m = (w &&& ~~~mask) &&& m := by
    rw [UInt32.and_assoc, hm]
  rw [split a, split b, h]

/-- Words that agree off a mask agree off a wider one. -/
theorem mono (h : AgreeOff mask a b) (hm : ~~~mask &&& ~~~wide = ~~~wide) :
    AgreeOff wide a b :=
  h.and_eq hm

/-- Words that agree off a part of a mask agree off the mask. -/
theorem of_and (h : AgreeOff (mask &&& wide) a b) : AgreeOff wide a b := by
  refine h.mono ?_
  apply UInt32.toBitVec_inj.1
  ext i
  simp only [UInt32.toBitVec_and, UInt32.toBitVec_not, BitVec.getElem_and, BitVec.getElem_not]
  cases mask.toBitVec[i] <;> cases wide.toBitVec[i] <;> rfl

end AgreeOff

/-! ## What writing some bits leaves alone -/

/-- Putting a bit changes nothing outside it. -/
theorem putBit_agreeOff (w i : Word) (b : Bool) : AgreeOff (1 <<< i) (putBit w i b) w := by
  cases b with
  | false =>
      show (w &&& ~~~(1 <<< i)) &&& ~~~(1 <<< i) = w &&& ~~~(1 <<< i)
      rw [UInt32.and_assoc, UInt32.and_self]
  | true =>
      show (w ||| (1 <<< i)) &&& ~~~(1 <<< i) = w &&& ~~~(1 <<< i)
      rw [or_and_mask, UInt32.and_not_self, UInt32.or_zero]

/-- Taking the bits under a mask from another word changes nothing outside the mask. -/
theorem blend_agreeOff (w value mask : Word) :
    AgreeOff mask ((w &&& ~~~mask) ||| (value &&& mask)) w := by
  show ((w &&& ~~~mask) ||| (value &&& mask)) &&& ~~~mask = w &&& ~~~mask
  rw [or_and_mask, UInt32.and_assoc, UInt32.and_self, UInt32.and_assoc, UInt32.and_not_self,
    UInt32.and_zero, UInt32.or_zero]

/-- Putting a bit into words that agree leaves them in agreement. -/
theorem AgreeOff.putBit {mask a b : Word} (h : AgreeOff mask a b) (i : Word) (v : Bool) :
    AgreeOff mask (putBit a i v) (putBit b i v) := by
  have h' : a &&& ~~~mask = b &&& ~~~mask := h
  cases v with
  | true =>
      show (a ||| 1 <<< i) &&& ~~~mask = (b ||| 1 <<< i) &&& ~~~mask
      rw [or_and_mask, or_and_mask, h']
  | false =>
      have swap (w m : Word) : w &&& m &&& ~~~mask = w &&& ~~~mask &&& m := by
        rw [UInt32.and_assoc, UInt32.and_comm m, ← UInt32.and_assoc]
      show a &&& ~~~(1 <<< i) &&& ~~~mask = b &&& ~~~(1 <<< i) &&& ~~~mask
      rw [swap, h', swap]

/-! ## Single bits -/

/-- Two words are the same under a mask when they are the same at each bit it holds. -/
theorem and_mask_eq_iff (a b mask : Word) :
    a &&& mask = b &&& mask ↔ ∀ i : Fin 32, mask.toBitVec.getLsbD i = true →
      a.toBitVec.getLsbD i = b.toBitVec.getLsbD i := by
  rw [← UInt32.toBitVec_inj, UInt32.toBitVec_and, UInt32.toBitVec_and]
  constructor
  · intro h i hi
    have hbit := congrArg (fun w : BitVec 32 => w.getLsbD i) h
    simp only [BitVec.getLsbD_and, hi, Bool.and_true] at hbit
    exact hbit
  · intro h
    refine BitVec.eq_of_getLsbD_eq ?_
    intro i hi
    rw [BitVec.getLsbD_and, BitVec.getLsbD_and]
    cases hm : mask.toBitVec.getLsbD i with
    | false => rw [Bool.and_false, Bool.and_false]
    | true => rw [h ⟨i, hi⟩ hm]

/-- A bit is the digit of the number at its position. -/
theorem bit_eq_getLsbD (w : Word) {i : Word} (h : i < 32) :
    bit w i = w.toBitVec.getLsbD i.toNat := by
  have hi : i.toNat < 32 := h
  have hs : (w >>> i).toNat = w.toNat >>> i.toNat := by
    rw [UInt32.toNat_shiftRight, Nat.mod_eq_of_lt hi]
  have hb : ((w >>> i) &&& 1).toNat = (w.toNat >>> i.toNat) % 2 := by
    rw [UInt32.toNat_and, hs]
    exact Nat.and_one_is_mod _
  rw [Bool.eq_iff_iff, bit, beq_iff_eq, ← UInt32.toNat_inj, hb, BitVec.getLsbD,
    Nat.testBit_eq_decide_div_mod_eq, Nat.shiftRight_eq_div_pow, decide_eq_true_iff]
  rfl

/-- So it is the parity of a quotient. -/
theorem bit_eq_decide (w : Word) {i : Word} (h : i < 32) :
    bit w i = decide (w.toNat / 2 ^ i.toNat % 2 = 1) := by
  rw [bit_eq_getLsbD w h, BitVec.getLsbD, Nat.testBit_eq_decide_div_mod_eq]
  rfl

/-- Words with the same bits are the same word. -/
theorem eq_of_bit_eq {a b : Word} (h : ∀ i < 32, bit a i = bit b i) : a = b := by
  refine UInt32.toBitVec_inj.1 (BitVec.eq_of_getLsbD_eq ?_)
  intro i hi
  have hto : (UInt32.ofNat i).toNat = i := UInt32.toNat_ofNat_of_lt' (Nat.lt_trans hi (by decide))
  have hlt : UInt32.ofNat i < 32 := by
    rw [UInt32.lt_iff_toNat_lt, hto]
    exact hi
  have hbit := h (UInt32.ofNat i) hlt
  rw [bit_eq_getLsbD a hlt, bit_eq_getLsbD b hlt, hto] at hbit
  exact hbit

/-- Words that agree off a mask have the same bits outside it. -/
theorem AgreeOff.bit_eq {mask a b i : Word} (h : AgreeOff mask a b) (hi : i < 32)
    (hm : bit mask i = false) : bit a i = bit b i := by
  have hi' : i.toNat < 32 := hi
  have hspared : (~~~mask).toBitVec.getLsbD i.toNat = true := by
    rw [UInt32.toBitVec_not, BitVec.getLsbD_not, ← bit_eq_getLsbD mask hi, hm, Bool.not_false,
      Bool.and_true]
    exact decide_eq_true hi'
  rw [bit_eq_getLsbD a hi, bit_eq_getLsbD b hi]
  exact (and_mask_eq_iff a b (~~~mask)).mp h ⟨i.toNat, hi'⟩ hspared

/-- A bit that was put reads back, and every other bit keeps its value. -/
theorem bit_putBit (w : Word) {i j : Word} (hi : i < 32) (hj : j < 32) (b : Bool) :
    bit (putBit w i b) j = if i = j then b else bit w j := by
  have hi' : i.toNat < 32 := hi
  have hj' : j.toNat < 32 := hj
  have hij : i = j ↔ i.toNat = j.toNat := UInt32.toNat_inj.symm
  have hone : ((1 : Word) <<< i).toBitVec = BitVec.twoPow 32 i.toNat := by
    apply BitVec.eq_of_toNat_eq
    simp [Nat.mod_eq_of_lt hi', Nat.shiftLeft_eq]
  rw [bit_eq_getLsbD _ hj, bit_eq_getLsbD _ hj, putBit]
  cases b with
  | false =>
      rw [if_neg Bool.false_ne_true, UInt32.toBitVec_and, UInt32.toBitVec_not, hone,
        BitVec.getLsbD_and, BitVec.getLsbD_not, BitVec.getLsbD_twoPow]
      by_cases h : i = j
      · simp [h, hj']
      · simp [h, hj', mt hij.mpr h]
  | true =>
      rw [if_pos rfl, UInt32.toBitVec_or, hone, BitVec.getLsbD_or, BitVec.getLsbD_twoPow]
      by_cases h : i = j
      · simp [h, hj']
      · simp [h, mt hij.mpr h]

end Armv4t
