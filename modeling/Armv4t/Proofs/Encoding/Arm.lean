import Armv4t.Arm.Decode
import Armv4t.Proofs.Fields

/-! # Encodings of the 32-bit set — which words are which instructions

    The decoder is a cascade of tests, and a word may pass several of them before it
    falls to one family.  The table below has no order: each row gives the fixed bits of
    one kind of instruction, and where the operands stand.

    * every word stands in the row of the instruction it decodes to (`Encodes.decode`);
    * the words of the last rows are reserved or go to a coprocessor, and no word of
      theirs stands in another row (`trapping_iff`). -/

namespace Armv4t.Arm

/-- The encodings that no program may use. -/
inductive Reserved (w : Word) : Prop where
  /-- The multiplies and the exchange fill only a part of their space. -/
  | multiply (family : field w 25 3 = 0b000) (form : field w 4 4 = 0b1001)
      (short : field w 22 6 ≠ 0b000000) (long : field w 23 5 ≠ 0b00001)
      (swap : ¬ (field w 23 5 = 0b00010 ∧ field w 20 2 = 0b00 ∧ field w 8 4 = 0b0000)) :
      Reserved w
  /-- No store is signed. -/
  | signedStore (family : field w 25 3 = 0b000) (high : bit w 7 = true) (low : bit w 4 = true)
      (kind : field w 5 2 ≠ 0b00) (store : bit w 20 = false) (signed : field w 5 2 ≠ 0b01) :
      Reserved w
  /-- A test that sets no flags is a status transfer, a branch exchange, or nothing. -/
  | test (family : field w 25 3 = 0b000) (plain : ¬ (bit w 7 = true ∧ bit w 4 = true))
      (op : field w 23 2 = 0b10) (keep : bit w 20 = false) (form : field w 4 4 ≠ 0b0000)
      (exchange : field w 4 24 ≠ 0x12FFF1) : Reserved w
  | immediateTest (family : field w 25 3 = 0b001) (op : field w 23 2 = 0b10)
      (form : field w 20 2 = 0b00) : Reserved w
  /-- A single transfer has no offset shifted by a register. -/
  | shiftedOffset (family : field w 25 3 = 0b011) (form : bit w 4 = true) : Reserved w

/-- The encodings of coprocessor instructions. -/
inductive ForCoprocessor (w : Word) : Prop where
  | transfer (family : field w 25 3 = 0b110) : ForCoprocessor w
  | operation (family : field w 24 4 = 0b1110) : ForCoprocessor w

/-- Which words encode an instruction, their condition aside. -/
inductive Encodes (w : Word) : Instruction → Prop where
  | immediateOperation (family : field w 25 3 = 0b001)
      (flags : isTestWithoutFlags w = false) :
      Encodes w (.dataProcessing (.ofCode (nibble w 21)) (bit w 20) (nibble w 16) (nibble w 12)
        (.immediate (.ofField w)))
  | shiftedOperation (family : field w 25 3 = 0b000) (form : bit w 4 = false)
      (flags : isTestWithoutFlags w = false) :
      Encodes w (.dataProcessing (.ofCode (nibble w 21)) (bit w 20) (nibble w 16) (nibble w 12)
        (.shifted (nibble w 0) (.ofCode (field w 5 2)) (.immediate (quint w 7))))
  | registerShiftedOperation (family : field w 25 3 = 0b000) (high : bit w 7 = false)
      (form : bit w 4 = true) (flags : isTestWithoutFlags w = false) :
      Encodes w (.dataProcessing (.ofCode (nibble w 21)) (bit w 20) (nibble w 16) (nibble w 12)
        (.shifted (nibble w 0) (.ofCode (field w 5 2)) (.register (nibble w 8))))
  | moveFromStatus (fixed : field w 23 5 = 0b00010) (op : field w 20 2 = 0b00)
      (form : field w 4 4 = 0b0000) :
      Encodes w (.moveFromStatus (decodeStatusRegister w) (nibble w 12))
  | moveRegisterToStatus (fixed : field w 23 5 = 0b00010) (op : field w 20 2 = 0b10)
      (form : field w 4 4 = 0b0000) :
      Encodes w (.moveToStatus (decodeStatusRegister w) ⟨bit w 16, bit w 19⟩
        (.register (nibble w 0)))
  | moveImmediateToStatus (fixed : field w 23 5 = 0b00110) (op : field w 20 2 = 0b10) :
      Encodes w (.moveToStatus (decodeStatusRegister w) ⟨bit w 16, bit w 19⟩
        (.immediate (.ofField w)))
  | multiply (fixed : field w 22 6 = 0b000000) (form : field w 4 4 = 0b1001) :
      Encodes w (.multiply (bit w 21) (bit w 20) (nibble w 16) (nibble w 12) (nibble w 8)
        (nibble w 0))
  | multiplyLong (fixed : field w 23 5 = 0b00001) (form : field w 4 4 = 0b1001) :
      Encodes w (.multiplyLong (bit w 22) (bit w 21) (bit w 20) (nibble w 16) (nibble w 12)
        (nibble w 8) (nibble w 0))
  | swap (fixed : field w 23 5 = 0b00010) (op : field w 20 2 = 0b00)
      (zero : field w 8 4 = 0b0000) (form : field w 4 4 = 0b1001) :
      Encodes w (.swap (.ofBit (bit w 22)) (nibble w 16) (nibble w 12) (nibble w 0))
  | branchExchange (fixed : field w 4 24 = 0x12FFF1) : Encodes w (.branchExchange (nibble w 0))
  | halfByRegister (family : field w 25 3 = 0b000) (form : bit w 22 = false)
      (high : bit w 7 = true) (low : bit w 4 = true) {kind : HalfTransfer}
      (hkind : decodeHalfKind w = some kind) :
      Encodes w (.halfTransfer kind (decodeAddressing w) (nibble w 16) (nibble w 12)
        (.register (nibble w 0)))
  | halfByOffset (family : field w 25 3 = 0b000) (form : bit w 22 = true)
      (high : bit w 7 = true) (low : bit w 4 = true) {kind : HalfTransfer}
      (hkind : decodeHalfKind w = some kind) :
      Encodes w (.halfTransfer kind (decodeAddressing w) (nibble w 16) (nibble w 12)
        (.immediate ((field w 8 4 <<< 4) ||| field w 0 4)))
  | transferByOffset (family : field w 25 3 = 0b010) :
      Encodes w (.singleTransfer (.ofBit (bit w 20)) (.ofBit (bit w 22)) (decodeAddressing w)
        (nibble w 16) (nibble w 12) (.immediate (field w 0 12)))
  | transferByRegister (family : field w 25 3 = 0b011) (form : bit w 4 = false) :
      Encodes w (.singleTransfer (.ofBit (bit w 20)) (.ofBit (bit w 22)) (decodeAddressing w)
        (nibble w 16) (nibble w 12)
        (.shifted (nibble w 0) (.ofCode (field w 5 2)) (quint w 7)))
  | blockTransfer (family : field w 25 3 = 0b100) :
      Encodes w (.blockTransfer (.ofBit (bit w 20)) (decodeAddressing w) (bit w 22) (nibble w 16)
        w.toUInt16)
  | branch (family : field w 25 3 = 0b101) :
      Encodes w (.branch (bit w 24) (signExtend (field w 0 24 <<< 2) 26))
  | softwareInterrupt (family : field w 24 4 = 0b1111) :
      Encodes w (.softwareInterrupt (field w 0 24))
  | coprocessor (h : ForCoprocessor w) : Encodes w .coprocessor
  | undefined (h : Reserved w) : Encodes w .undefined

variable {w : Word}

/-! ## Every word stands in a row -/

theorem isTestWithoutFlags_iff :
    isTestWithoutFlags w = true ↔ field w 23 2 = 0b10 ∧ bit w 20 = false := by
  rw [isTestWithoutFlags, Bool.and_eq_true, beq_iff_eq, Bool.not_eq_true']

theorem Encodes.multiplyOrSwap (family : field w 25 3 = 0b000) (form : field w 4 4 = 0b1001) :
    Encodes w (decodeMultiplyOrSwap w) := by
  rw [decodeMultiplyOrSwap]
  by_cases hshort : field w 23 5 = 0b00000
  · rw [if_pos hshort]
    have hfive := AgreeOn.of_pattern 0 hshort rfl
    cases h22 : bit w 22 with
    | true =>
        rw [if_pos rfl]
        refine .undefined (.multiply family form ?_ ?_ ?_)
        · intro hsix
          have hzero : bit w 22 = false := (AgreeOn.of_pattern 0 hsix rfl).bit_eq (by decide)
          exact Bool.noConfusion (h22.symm.trans hzero)
        · rw [hshort]
          decide
        · rintro ⟨hswap, -⟩
          rw [hshort] at hswap
          exact absurd hswap (by decide)
    | false =>
        rw [if_neg Bool.false_ne_true]
        have hsix := (hfive.union (AgreeOn.of_bit_pattern 0 h22 rfl)).field_eq
          (p := 22) (n := 6) (by decide)
        exact .multiply hsix form
  rw [if_neg hshort]
  by_cases hlong : field w 23 5 = 0b00001
  · rw [if_pos hlong]
    exact .multiplyLong hlong form
  rw [if_neg hlong]
  by_cases hswap : field w 23 5 = 0b00010 ∧ field w 20 2 = 0 ∧ field w 8 4 = 0
  · rw [if_pos hswap]
    obtain ⟨fixed, op, zero⟩ := hswap
    exact .swap fixed op zero form
  rw [if_neg hswap]
  refine .undefined (.multiply family form ?_ hlong hswap)
  intro hsix
  exact hshort ((AgreeOn.of_pattern 0 hsix rfl).field_eq (by decide))

/-- The kind of a halfword transfer is told by three bits; what they do not tell is a
    multiply or a signed store. -/
theorem Encodes.halfTransfer (family : field w 25 3 = 0b000) (high : bit w 7 = true)
    (low : bit w 4 = true) (form : field w 4 4 ≠ 0b1001) : Encodes w (decodeHalfTransfer w) := by
  have hnone : ¬ (bit w 6 = false ∧ bit w 5 = false) := by
    rintro ⟨h6, h5⟩
    have hform := (((AgreeOn.of_bit_pattern 0x90 high rfl).union
      (AgreeOn.of_bit_pattern 0x90 h6 rfl)).union (AgreeOn.of_bit_pattern 0x90 h5 rfl)).union
      (AgreeOn.of_bit_pattern 0x90 low rfl)
    exact form (hform.field_eq (by decide))
  rw [decodeHalfTransfer]
  cases hkind : decodeHalfKind w with
  | some kind =>
      cases h22 : bit w 22 with
      | true => exact .halfByOffset family h22 high low hkind
      | false => exact .halfByRegister family h22 high low hkind
  | none =>
      rw [decodeHalfKind] at hkind
      cases h20 : bit w 20 with
      | true =>
          -- a load of either kind has a name
          cases h6 : bit w 6 with
          | true => cases h5 : bit w 5 <;> rw [h20, h6, h5] at hkind <;> exact nomatch hkind
          | false =>
              cases h5 : bit w 5 with
              | true => rw [h20, h6, h5] at hkind; exact nomatch hkind
              | false => exact absurd ⟨h6, h5⟩ hnone
      | false =>
          cases h6 : bit w 6 with
          | true =>
              refine .undefined (.signedStore family high low ?_ h20 ?_)
              · intro h
                have := (AgreeOn.of_pattern 0 h rfl).bit_eq (i := 6) (by decide)
                exact Bool.noConfusion (h6.symm.trans this)
              · intro h
                have := (AgreeOn.of_pattern 0x20 h rfl).bit_eq (i := 6) (by decide)
                exact Bool.noConfusion (h6.symm.trans this)
          | false =>
              cases h5 : bit w 5 with
              | true => rw [h20, h6, h5] at hkind; exact nomatch hkind
              | false => exact absurd ⟨h6, h5⟩ hnone

/-- The fields that tell a branch exchange fill bits 27 to 4. -/
theorem field_of_exchange (family : field w 25 3 = 0b000) (op : field w 23 2 = 0b10)
    (keep : bit w 20 = false) (h4 : field w 4 4 = 1) (h21 : field w 21 2 = 1)
    (h8 : field w 8 12 = 0xFFF) : field w 4 24 = 0x12FFF1 := by
  have hall := ((((AgreeOn.of_pattern 0x012FFF10 family rfl).union
    (AgreeOn.of_pattern 0x012FFF10 op rfl)).union
    (AgreeOn.of_bit_pattern 0x012FFF10 keep rfl)).union
    (AgreeOn.of_pattern 0x012FFF10 h4 rfl)).union
    ((AgreeOn.of_pattern 0x012FFF10 h21 rfl).union (AgreeOn.of_pattern 0x012FFF10 h8 rfl))
  exact hall.field_eq (by decide)

/-- The tests that set no flags. -/
theorem Encodes.miscellaneous (family : field w 25 3 = 0b000)
    (plain : ¬ (bit w 7 = true ∧ bit w 4 = true)) (op : field w 23 2 = 0b10)
    (keep : bit w 20 = false) : Encodes w (decodeMiscellaneous w) := by
  have hfixed := (AgreeOn.of_pattern 0x01000000 family rfl).union
    (AgreeOn.of_pattern 0x01000000 op rfl)
  have hfive := hfixed.field_eq (p := 23) (n := 5) (by decide)
  rw [decodeMiscellaneous]
  by_cases hform : field w 4 4 = 0
  · rw [if_pos hform]
    cases h21 : bit w 21 with
    | true =>
        have htwo := ((AgreeOn.of_bit_pattern 0x00200000 h21 rfl).union
          (AgreeOn.of_bit_pattern 0x00200000 keep rfl)).field_eq (p := 20) (n := 2) (by decide)
        exact .moveRegisterToStatus hfive htwo hform
    | false =>
        have htwo := ((AgreeOn.of_bit_pattern 0 h21 rfl).union
          (AgreeOn.of_bit_pattern 0 keep rfl)).field_eq (p := 20) (n := 2) (by decide)
        exact .moveFromStatus hfive htwo hform
  rw [if_neg hform]
  by_cases hbx : field w 4 4 = 1 ∧ field w 21 2 = 1 ∧ field w 8 12 = 0xFFF
  · rw [if_pos hbx]
    obtain ⟨h4, h21, h8⟩ := hbx
    exact .branchExchange (field_of_exchange family op keep h4 h21 h8)
  rw [if_neg hbx]
  refine .undefined (.test family plain op keep hform ?_)
  intro hall
  have hword := AgreeOn.of_pattern 0x012FFF10 hall rfl
  exact hbx ⟨hword.field_eq (by decide), hword.field_eq (by decide), hword.field_eq (by decide)⟩

theorem Encodes.registerFamily (family : field w 25 3 = 0b000) :
    Encodes w (decodeRegisterFamily w) := by
  rw [decodeRegisterFamily]
  by_cases hform : field w 4 4 = 0b1001
  · rw [if_pos hform]
    exact .multiplyOrSwap family hform
  rw [if_neg hform]
  by_cases hboth : bit w 7 = true ∧ bit w 4 = true
  · obtain ⟨high, low⟩ := hboth
    rw [high, low]
    exact .halfTransfer family high low hform
  rw [if_neg (mt (Bool.and_eq_true ..).mp hboth)]
  cases htest : isTestWithoutFlags w with
  | true =>
      obtain ⟨op, keep⟩ := isTestWithoutFlags_iff.mp htest
      exact .miscellaneous family hboth op keep
  | false =>
      -- what is left is data processing, by the kind of its shift amount
      have h25 : bit w 25 = false := (AgreeOn.of_pattern 0 family rfl).bit_eq (by decide)
      rw [if_neg Bool.false_ne_true, decodeDataProcessing, decodeOperand, h25]
      cases low : bit w 4 with
      | true =>
          have high : bit w 7 = false := eq_false_of_ne_true fun h => hboth ⟨h, low⟩
          exact .registerShiftedOperation family high low htest
      | false => exact .shiftedOperation family low htest

theorem Encodes.immediateFamily (family : field w 25 3 = 0b001) :
    Encodes w (decodeImmediateFamily w) := by
  rw [decodeImmediateFamily]
  cases htest : isTestWithoutFlags w with
  | true =>
      obtain ⟨op, keep⟩ := isTestWithoutFlags_iff.mp htest
      rw [if_pos rfl]
      cases h21 : bit w 21 with
      | true =>
          have hfive := ((AgreeOn.of_pattern 0x03000000 family rfl).union
            (AgreeOn.of_pattern 0x03000000 op rfl)).field_eq (p := 23) (n := 5) (by decide)
          have htwo := ((AgreeOn.of_bit_pattern 0x00200000 h21 rfl).union
            (AgreeOn.of_bit_pattern 0x00200000 keep rfl)).field_eq (p := 20) (n := 2) (by decide)
          exact .moveImmediateToStatus hfive htwo
      | false =>
          have htwo := ((AgreeOn.of_bit_pattern 0 h21 rfl).union
            (AgreeOn.of_bit_pattern 0 keep rfl)).field_eq (p := 20) (n := 2) (by decide)
          exact .undefined (.immediateTest family op htwo)
  | false =>
      have h25 : bit w 25 = true := (AgreeOn.of_pattern 0x02000000 family rfl).bit_eq (by decide)
      rw [if_neg Bool.false_ne_true, decodeDataProcessing, decodeOperand, h25]
      exact .immediateOperation family htest

/-- The families, by bits 27 to 25. -/
theorem family_cases (w : Word) : field w 25 3 = 0b000 ∨ field w 25 3 = 0b001
    ∨ field w 25 3 = 0b010 ∨ field w 25 3 = 0b011 ∨ field w 25 3 = 0b100
    ∨ field w 25 3 = 0b101 ∨ field w 25 3 = 0b110 ∨ field w 25 3 = 0b111 := by
  have hle : (field w 25 3).toNat ≤ 7 := UInt32.le_iff_toNat_le.mp (field_le w 25 3)
  simp only [← UInt32.toNat_inj]
  show (field w 25 3).toNat = 0 ∨ (field w 25 3).toNat = 1 ∨ (field w 25 3).toNat = 2
    ∨ (field w 25 3).toNat = 3 ∨ (field w 25 3).toNat = 4 ∨ (field w 25 3).toNat = 5
    ∨ (field w 25 3).toNat = 6 ∨ (field w 25 3).toNat = 7
  omega

/-- **Every word stands in the row of the instruction it decodes to.** -/
theorem Encodes.decode (w : Word) : Encodes w (decodeInstruction w) := by
  rw [decodeInstruction]
  rcases family_cases w with family | family | family | family | family | family | family | family
    <;> rw [family]
  · exact .registerFamily family
  · exact .immediateFamily family
  · have h25 : bit w 25 = false := (AgreeOn.of_pattern 0x04000000 family rfl).bit_eq (by decide)
    show Encodes w (decodeSingleTransfer w)
    rw [decodeSingleTransfer, h25]
    exact .transferByOffset family
  · have h25 : bit w 25 = true := (AgreeOn.of_pattern 0x06000000 family rfl).bit_eq (by decide)
    show Encodes w (if bit w 4 then .undefined else decodeSingleTransfer w)
    cases low : bit w 4 with
    | true => exact .undefined (.shiftedOffset family low)
    | false =>
        rw [if_neg Bool.false_ne_true, decodeSingleTransfer, h25]
        exact .transferByRegister family low
  · exact .blockTransfer family
  · exact .branch family
  · exact .coprocessor (.transfer family)
  · show Encodes w (if bit w 24 then .softwareInterrupt (field w 0 24) else .coprocessor)
    cases h24 : bit w 24 with
    | true =>
        have hfour := ((AgreeOn.of_pattern 0x0F000000 family rfl).union
          (AgreeOn.of_bit_pattern 0x0F000000 h24 rfl)).field_eq (p := 24) (n := 4) (by decide)
        exact .softwareInterrupt hfour
    | false =>
        have hfour := ((AgreeOn.of_pattern 0x0E000000 family rfl).union
          (AgreeOn.of_bit_pattern 0x0E000000 h24 rfl)).field_eq (p := 24) (n := 4) (by decide)
        exact .coprocessor (.operation hfour)

/-! ## Reserved words stand in no other row -/

/-- The families of the two register spaces. -/
theorem decodeInstruction_of_register (family : field w 25 3 = 0b000) :
    decodeInstruction w = decodeRegisterFamily w := by
  rw [decodeInstruction, family]
  rfl

theorem decodeInstruction_of_immediate (family : field w 25 3 = 0b001) :
    decodeInstruction w = decodeImmediateFamily w := by
  rw [decodeInstruction, family]
  rfl

/-- Bits 7 and 4 are both set in the form of a multiply. -/
theorem high_low_of_multiply (form : field w 4 4 = 0b1001) : bit w 7 = true ∧ bit w 4 = true := by
  have hform := AgreeOn.of_pattern 0x90 form rfl
  exact ⟨hform.bit_eq (by decide), hform.bit_eq (by decide)⟩

/-- **Every reserved word is undefined**, by the test of the cascade that is made for it. -/
theorem Reserved.decode (h : Reserved w) : decodeInstruction w = .undefined := by
  cases h with
  | multiply family form short long swap =>
      rw [decodeInstruction_of_register family, decodeRegisterFamily, if_pos form,
        decodeMultiplyOrSwap]
      by_cases hshort : field w 23 5 = 0b00000
      · rw [if_pos hshort]
        cases h22 : bit w 22 with
        | true => rfl
        | false =>
            have hsix := ((AgreeOn.of_pattern 0 hshort rfl).union
              (AgreeOn.of_bit_pattern 0 h22 rfl)).field_eq (p := 22) (n := 6) (by decide)
            exact absurd hsix short
      · rw [if_neg hshort, if_neg long, if_neg swap]
  | signedStore family high low kind store signed =>
      have hform : field w 4 4 ≠ 0b1001 := by
        intro form
        exact kind ((AgreeOn.of_pattern 0x90 form rfl).field_eq (by decide))
      rw [decodeInstruction_of_register family, decodeRegisterFamily, if_neg hform, high, low]
      show decodeHalfTransfer w = .undefined
      have hkind : decodeHalfKind w = none := by
        rw [decodeHalfKind, store]
        cases h6 : bit w 6 with
        | true => rfl
        | false =>
            cases h5 : bit w 5 with
            | false => rfl
            | true =>
                -- a plain halfword store, which is not meant
                have htwo := ((AgreeOn.of_bit_pattern 0x20 h6 rfl).union
                  (AgreeOn.of_bit_pattern 0x20 h5 rfl)).field_eq (p := 5) (n := 2) (by decide)
                exact absurd htwo signed
      rw [decodeHalfTransfer, hkind]
  | test family plain op keep form exchange =>
      have hform : field w 4 4 ≠ 0b1001 := fun h => plain (high_low_of_multiply h)
      rw [decodeInstruction_of_register family, decodeRegisterFamily, if_neg hform,
        if_neg (mt (Bool.and_eq_true ..).mp plain), isTestWithoutFlags_iff.mpr ⟨op, keep⟩,
        if_pos rfl, decodeMiscellaneous, if_neg form, if_neg]
      rintro ⟨h4, h21, h8⟩
      exact exchange (field_of_exchange family op keep h4 h21 h8)
  | immediateTest family op form =>
      have htwo := AgreeOn.of_pattern 0 form rfl
      have keep : bit w 20 = false := htwo.bit_eq (by decide)
      have h21 : bit w 21 = false := htwo.bit_eq (by decide)
      rw [decodeInstruction_of_immediate family, decodeImmediateFamily,
        isTestWithoutFlags_iff.mpr ⟨op, keep⟩, if_pos rfl, h21]
      rfl
  | shiftedOffset family form =>
      rw [decodeInstruction, family]
      show (if bit w 4 then Instruction.undefined else decodeSingleTransfer w) = .undefined
      rw [form, if_pos rfl]

/-- And every word for a coprocessor is one. -/
theorem ForCoprocessor.decode (h : ForCoprocessor w) : decodeInstruction w = .coprocessor := by
  cases h with
  | transfer family =>
      rw [decodeInstruction, family]
      rfl
  | operation family =>
      have hfour := AgreeOn.of_pattern 0x0E000000 family rfl
      have hthree : field w 25 3 = 0b111 := hfour.field_eq (by decide)
      have h24 : bit w 24 = false := hfour.bit_eq (by decide)
      rw [decodeInstruction, hthree]
      show (if bit w 24 then Instruction.softwareInterrupt (field w 0 24) else .coprocessor) = _
      rw [h24]
      rfl

/-- **The reserved words and those for a coprocessor trap, and only they.** -/
theorem trapping_iff (w : Word) :
    decodeInstruction w = .undefined ∨ decodeInstruction w = .coprocessor
      ↔ Reserved w ∨ ForCoprocessor w := by
  constructor
  · have row := Encodes.decode w
    rintro (h | h)
    · rw [h] at row
      cases row with
      | undefined reserved => exact .inl reserved
    · rw [h] at row
      cases row with
      | coprocessor target => exact .inr target
  · rintro (h | h)
    · exact .inl h.decode
    · exact .inr h.decode

end Armv4t.Arm
