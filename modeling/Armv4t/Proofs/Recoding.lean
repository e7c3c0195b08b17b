import Armv4t.Proofs.Recoding.Arm
import Armv4t.Proofs.Recoding.Thumb

/-! # Recoding — decoding loses no operand bit

    An instruction gives its word back, so that two words which decode alike are the
    same word wherever the instruction keeps their bits.

    * `Arm.code_decode` and `Thumb.code_decode` are the laws of the two codes: encoding
      what was decoded gives the word, less the bits that are not kept;
    * words with the same condition and the same instruction therefore agree off the bits
      that the instruction ignores, and halfwords with the same instruction are the same
      (`decoding_loses_nothing`). -/

namespace Armv4t

/-- Words that agree on a mask and on whatever a second one leaves besides agree off the
    second one. -/
theorem AgreeOff.of_agreeOn {a b m n : Word} (h : AgreeOn m a b)
    (h' : AgreeOn (~~~(m ||| n)) a b) : AgreeOff n a b := by
  have hcover : (m ||| ~~~(m ||| n)) &&& ~~~n = ~~~n := by
    apply UInt32.toBitVec_inj.1
    ext i
    simp only [UInt32.toBitVec_and, UInt32.toBitVec_or, UInt32.toBitVec_not, BitVec.getElem_and,
      BitVec.getElem_or, BitVec.getElem_not]
    cases m.toBitVec[i] <;> cases n.toBitVec[i] <;> rfl
  show a &&& ~~~n = b &&& ~~~n
  rw [← hcover, ← UInt32.and_assoc, ← UInt32.and_assoc,
    show a &&& (m ||| ~~~(m ||| n)) = b &&& (m ||| ~~~(m ||| n)) from h.union h']

/-- **Encoding what was decoded gives the word**, less the condition and the bits that the
    instruction ignores. -/
theorem Arm.code_decode (w : Word) :
    (decode w).instruction.code = w &&& ~~~(0xF0000000 ||| (decode w).instruction.ignored) :=
  (Encodes.decode w).recoded

/-- A halfword has no bits above the lower half. -/
theorem toUInt32_and_lower (h : Half) : h.toUInt32 &&& 0xFFFF = h.toUInt32 := by
  have hlt : h.toUInt32.toNat < 2 ^ 16 := by
    rw [UInt16.toNat_toUInt32]
    exact h.toNat_lt
  rw [← UInt32.toNat_inj, UInt32.toNat_and]
  exact (Nat.and_two_pow_sub_one_eq_mod _ 16).trans (Nat.mod_eq_of_lt hlt)

/-- **Encoding what was decoded gives the halfword**, whatever is not undefined. -/
theorem Thumb.code_decode (h : Half) (hi : (decode h).instruction ≠ .undefined) :
    (decode h).instruction.code = h.toUInt32 := by
  have hpart : _ = h.toUInt32 &&& 0xFFFF := (Encodes.decode h.toUInt32).recoded hi
  rw [toUInt32_and_lower] at hpart
  exact hpart

/-- **Decoding loses no operand bit**: two words with the same condition bits and the same
    instruction agree off the few bits that the instruction ignores, and are the same word
    where it ignores none; two halfwords with the same instruction are the same, unless
    both are undefined. -/
theorem decoding_loses_nothing :
    (∀ a b : Word, field a 28 4 = field b 28 4 →
        (Arm.decode a).instruction = (Arm.decode b).instruction →
        AgreeOff (Arm.decode a).instruction.ignored a b
          ∧ ((Arm.decode a).instruction.ignored = 0 → a = b))
      ∧ ∀ h k : Half, h ≠ k → (Thumb.decode h).instruction = (Thumb.decode k).instruction →
        (Thumb.decode h).instruction = .undefined ∧ (Thumb.decode k).instruction = .undefined := by
  constructor
  · intro a b hcond hinstr
    have hkept : AgreeOn (~~~(0xF0000000 ||| (Arm.decode a).instruction.ignored)) a b := by
      show a &&& _ = b &&& _
      rw [← Arm.code_decode a, hinstr]
      exact Arm.code_decode b
    have hoff := AgreeOff.of_agreeOn (AgreeOn.of_field hcond) hkept
    refine ⟨hoff, ?_⟩
    intro hnone
    rw [hnone] at hoff
    exact AgreeOn.eq hoff
  · intro h k hne hinstr
    by_cases hi : (Thumb.decode h).instruction = .undefined
    · exact ⟨hi, hinstr.symm.trans hi⟩
    · -- both give their halfwords back, which are then the same
      have hcode := Thumb.code_decode h hi
      rw [hinstr, Thumb.code_decode k (hinstr ▸ hi)] at hcode
      exact absurd (UInt16.toUInt32_inj.mp hcode.symm) hne

/-- A read of the status ignores bits that a word may hold anything in, and two undefined
    halfwords need not be the same. -/
theorem decoding_loses_nothing_of_status :
    AgreeOff 0x000F0F0F 0xE10F0000 0xE1000000
      ∧ (Thumb.decode 0xDE00).instruction = .undefined := by
  obtain ⟨hword, hhalf⟩ := decoding_loses_nothing
  have hcond : field 0xE10F0000 28 4 = field 0xE1000000 28 4 := by rfl
  have hinstr : (Arm.decode 0xE10F0000).instruction = (Arm.decode 0xE1000000).instruction := by
    rfl
  have hfirst : Thumb.Reserved (0xDE00 : Half).toUInt32 := by decide
  have hsecond : Thumb.Reserved (0xDE01 : Half).toUInt32 := by decide
  have hgap : (Thumb.decode 0xDE00).instruction = (Thumb.decode 0xDE01).instruction :=
    hfirst.decode.trans hsecond.decode.symm
  exact ⟨(hword _ _ hcond hinstr).1, (hhalf _ _ (by decide) hgap).1⟩

end Armv4t
